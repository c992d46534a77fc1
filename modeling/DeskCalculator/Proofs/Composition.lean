import DeskCalculator.Proofs.Sessions

/-!
# DeskCalculator.Proofs.Composition — a script in two parts

A script that is carried out in two parts, each with a start of its own, leaves the session and the
texts of the whole.  The start between the parts does nothing: the session is then still running, or
it has ended, and a session that has ended is not started again.

* `Begun.start_eq`: a start does nothing to a session that has begun.
* `runScript_append`: a script in two parts.
* `Text.lines_append`: the lines of a byte stream that is cut behind a line feed.
* `scripts_compose`: scripts and dialogues in two parts.
-/

namespace DeskCalculator

/-! ## Byte streams in two parts -/

namespace Text

theorem linesFrom_lineFeed (start bytes more : List UInt8) :
    linesFrom start (bytes ++ 10 :: more) = linesFrom start (bytes ++ [10]) ++ lines more := by
  induction bytes generalizing start with
  | nil => simp [linesFrom, lines]
  | cons b bytes ih =>
    by_cases hb : b = 10
    · simp [linesFrom, hb, ih]
    · simp [linesFrom, hb, ih]

/-- A byte stream that is cut behind a line feed falls into the lines of its two parts. -/
theorem lines_append {bytes : List UInt8} (h : ∀ b ∈ bytes.getLast?, b = 10)
    (more : List UInt8) : lines (bytes ++ more) = lines bytes ++ lines more := by
  rcases List.eq_nil_or_concat bytes with rfl | ⟨start, b, rfl⟩
  · rfl
  · obtain rfl : b = 10 := h b (by simp)
    simpa [lines] using linesFrom_lineFeed [] start more

theorem readable_append {ls : List (List UInt8)} (h : ∀ bytes ∈ ls, (decode? bytes).isSome)
    (more : List (List UInt8)) : readable (ls ++ more) = readable ls ++ readable more := by
  induction ls with
  | nil => rfl
  | cons bytes ls ih =>
    rw [List.forall_mem_cons] at h
    obtain ⟨line, hline⟩ := Option.isSome_iff_exists.mp h.1
    rw [List.cons_append, readable_cons_of_some hline, readable_cons_of_some hline, ih h.2,
      List.cons_append]

end Text

namespace Session

variable {s : Session}

/-! ## Sessions that have begun -/

/-- A session that has begun: it is running, or it has ended. -/
def Begun (s : Session) : Prop := s.running = true ∨ s.exited = true

theorem begun_start (s : Session) : s.start.Begun := by
  unfold Session.start
  by_cases hexited : s.exited = true
  · rw [if_pos hexited]
    exact .inr hexited
  · rw [if_neg hexited]
    exact .inl rfl

/-- A start does nothing to a session that has begun. -/
theorem Begun.start_eq (h : s.Begun) : s.start = s := by
  unfold Session.start
  by_cases hexited : s.exited = true
  · rw [if_pos hexited]
  · rw [if_neg hexited]
    have hrunning : s.interpreter.running = true := h.resolve_right hexited
    simp [Interpreter.start, ← hrunning]

/-- A line leaves a session begun, since only a reply can stop it, and that ends the session. -/
theorem Begun.processLine (h : s.Begun) (line : String) : (s.processLine line).1.Begun := by
  by_cases hs : s.running = true
  · rcases processLine_cases hs line with ⟨i, hsubmit, hline⟩ | ⟨i, reply, -, hline⟩ |
      ⟨i, fault, hsubmit, -⟩
    · have hsilent : (s.interpreter.submit line).2 = .ok none := by rw [hsubmit]
      have hsame : i = s.interpreter := by
        simpa [hsubmit] using Interpreter.submit_of_silent hsilent
      rw [hline, hsame]
      exact h
    · rw [hline]
      by_cases hi : i.running = true
      · exact .inl hi
      · exact .inr (by simp [hi])
    · rw [processLine_of_fault hs (by rw [hsubmit])]
      exact h
  · rw [processLine_of_stopped (by simpa using hs)]
    exact h

theorem Begun.processLines (h : s.Begun) (lines : List String) :
    (s.processLines lines).1.Begun :=
  processLines_keeps (fun _ line h => h.processLine line) h lines

/-! ## Scripts and dialogues in two parts -/

theorem processLines_append (s : Session) (xs ys : List String) :
    s.processLines (xs ++ ys) =
      (((s.processLines xs).1.processLines ys).1,
        (s.processLines xs).2 ++ ((s.processLines xs).1.processLines ys).2) := by
  induction xs generalizing s with
  | nil => rfl
  | cons x xs ih =>
    by_cases hs : s.running = true
    · simp [processLines_cons_of_running hs, ih]
    · have hstopped : s.running = false := by simpa using hs
      simp [processLines_of_stopped hstopped]

/-- **A script in two parts** leaves the session of the whole, and gives its texts. -/
theorem runScript_append (s : Session) (xs ys : List String) :
    s.runScript (xs ++ ys) =
      (((s.runScript xs).1.runScript ys).1,
        (s.runScript xs).2 ++ ((s.runScript xs).1.runScript ys).2) := by
  have hbegun : (s.runScript xs).1.Begun := s.begun_start.processLines xs
  have hsecond : (s.runScript xs).1.runScript ys = (s.runScript xs).1.processLines ys := by
    rw [runScript, hbegun.start_eq]
  rw [hsecond]
  exact s.start.processLines_append xs ys

theorem run_session (s : Session) (input : List UInt8) :
    (s.run input).session = (s.runScript (Text.readable (Text.lines input))).1 := by
  rw [run_eq]

/-- **Scripts and dialogues compose**, from any session, whether it was started or has ended.  Two
scripts, one after the other, leave the session that the one script of all their lines leaves, and
give its texts, the first and then the second.  Two dialogues leave the session that the one
dialogue over both inputs leaves, if the first input ends with a line feed and all its lines are
UTF-8. -/
theorem scripts_compose (s : Session) :
    (∀ xs ys : List String,
      ((s.runScript xs).1.runScript ys).1 = (s.runScript (xs ++ ys)).1 ∧
      (s.runScript xs).2 ++ ((s.runScript xs).1.runScript ys).2 = (s.runScript (xs ++ ys)).2) ∧
    ∀ first second : List UInt8, (∀ b ∈ first.getLast?, b = 10) →
      (∀ line ∈ Text.lines first, (Text.decode? line).isSome) →
      ((s.run first).session.run second).session = (s.run (first ++ second)).session := by
  constructor
  · intro xs ys
    rw [runScript_append]
    exact ⟨rfl, rfl⟩
  · intro first second hend htexts
    simp only [run_session]
    rw [Text.lines_append hend, Text.readable_append htexts, runScript_append]

/-- The session ends in the second of two dialogues, in front of a line that is not UTF-8. -/
theorem scripts_compose_over_exit :
    let first := "ms 5\r\ndiv 1 0\n".toUTF8.toList
    let second := "m+ 2\nexit\nmc\n".toUTF8.toList ++ [0xff]
    ((freshSession.run first).session.run second).session =
        (freshSession.run (first ++ second)).session ∧
      (freshSession.run (first ++ second)).session.exited = true ∧
      (freshSession.run (first ++ second)).session.summary = ⟨4, 1⟩ ∧
      (freshSession.run (first ++ second)).session.interpreter.calculator.memory.value = 7 := by
  intro first second
  have hend : ∀ b ∈ first.getLast?, b = 10 := by decide +kernel
  have htexts : ∀ line ∈ Text.lines first, (Text.decode? line).isSome := by decide +kernel
  exact ⟨(scripts_compose freshSession).2 first second hend htexts, by decide +kernel,
    by decide +kernel, by decide +kernel⟩

end Session

end DeskCalculator
