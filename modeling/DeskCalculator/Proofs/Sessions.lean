import DeskCalculator.Proofs.Atomicity
import DeskCalculator.Proofs.Dialogues
import DeskCalculator.Proofs.Replies

/-!
# DeskCalculator.Proofs.Sessions — the life of a session

A session is used in four ways: it is started, given a line, given a script, or given a dialogue.  A
script and a dialogue are a start and some lines, so what is kept by a start and by one line is kept
by every use, and by any number of uses in any order.

* `Sound`: a session runs exactly if it was started and has not ended, and its counts are those of
  the texts that it has given and of the complaints among them.
* `Sound.afterAll`: any uses keep a session sound.
* `afterAll_of_exited`: a session that has ended is changed by no use.
* `session_life`: all of it, for a session from a config.
-/

namespace DeskCalculator

/-- A use of a session. -/
inductive SessionUse
  | start
  | line (line : String)
  | script (lines : List String)
  | dialogue (input : List UInt8)

/-- Whether a use starts the session. -/
def SessionUse.starts : SessionUse → Bool
  | start | script _ | dialogue _ => true
  | line _ => false

namespace Session

/-- The session after a use. -/
def after (s : Session) : SessionUse → Session
  | .start => s.start
  | .line line => (s.processLine line).1
  | .script lines => (s.runScript lines).1
  | .dialogue input => (s.run input).session

/-- The texts that a session gives in a use, which are those that its lines give. -/
def given (s : Session) : SessionUse → List String
  | .start => []
  | .line line => (s.processLine line).2.toList
  | .script lines => (s.runScript lines).2
  | .dialogue input => (s.start.exchanges (Text.readable (Text.lines input))).filterMap Prod.snd

/-- The session after some uses. -/
def afterAll (s : Session) (uses : List SessionUse) : Session := uses.foldl after s

/-- The texts that a session gives in some uses. -/
def allGiven (s : Session) : List SessionUse → List String
  | [] => []
  | u :: uses => s.given u ++ (s.after u).allGiven uses

/-- A session that has given some texts, and whether it has been started. -/
structure Sound (s : Session) (started : Bool) (texts : List String) : Prop where
  running_eq : s.running = (started && !s.exited)
  commands : s.summary.commands = texts.length
  errors : s.summary.errors = texts.countP isComplaint

variable {s : Session} {started : Bool} {texts : List String}

/-! ## One line -/

/-- A line with a fault leaves the session running. -/
theorem processLine_of_fault {line : String} {fault : Fault} (h : s.running = true)
    (hfault : (s.interpreter.submit line).2 = .error fault) :
    s.processLine line =
      ({ s with summary := ⟨s.summary.commands + 1, s.summary.errors + 1⟩ },
        some (complaint fault)) := by
  have hsame := s.interpreter.submit_atomic line fault hfault
  rcases processLine_cases h line with
    ⟨i, hsubmit, -⟩ | ⟨i, reply, hsubmit, -⟩ | ⟨i, f, hsubmit, hline⟩
  · rw [hsubmit] at hfault
    cases hfault
  · rw [hsubmit] at hfault
    cases hfault
  · rw [hsubmit] at hfault hsame
    cases hfault
    rw [hline, ← hsame]

theorem processLine_of_blank {line : String} (h : splitLine line = none) :
    s.processLine line = (s, none) := by
  simp [processLine, Interpreter.submit, h]

theorem Sound.start (h : s.Sound started texts) : s.start.Sound true texts := by
  unfold Session.start
  cases hexited : s.exited with
  | true =>
    refine ⟨?_, h.commands, h.errors⟩
    have hrunning := h.running_eq
    simpa [hexited] using hrunning
  | false => exact ⟨by simp [running, Interpreter.start], h.commands, h.errors⟩

/-- A line keeps a session sound: it is counted when it gives a text, and counted as an error when
the text is a complaint, since the text of a reply never is. -/
theorem Sound.processLine (h : s.Sound started texts) (line : String) :
    (s.processLine line).1.Sound started (texts ++ (s.processLine line).2.toList) := by
  cases hs : s.running with
  | false =>
    rw [processLine_of_stopped hs]
    simpa using h
  | true =>
    have hstarted : started = true ∧ s.exited = false := by
      have hrunning := h.running_eq
      simpa [hs] using hrunning
    obtain ⟨rfl, hexited⟩ := hstarted
    rcases processLine_cases hs line with ⟨i, hsubmit, hline⟩ | ⟨i, reply, hsubmit, hline⟩ |
      ⟨i, fault, hsubmit, -⟩
    · have hsilent : (s.interpreter.submit line).2 = .ok none := by rw [hsubmit]
      have hsame : i = s.interpreter := by
        simpa [hsubmit] using Interpreter.submit_of_silent hsilent
      rw [hline, hsame]
      simpa using h
    · have hreply : (s.interpreter.submit line).2 = .ok (some reply) := by rw [hsubmit]
      have htext : isComplaint reply.text = false := Interpreter.isComplaint_of_submit hreply
      rw [hline]
      refine ⟨by simp [running, hexited], ?_, ?_⟩
      · simp [h.commands]
      · simp [h.errors, htext]
    · rw [processLine_of_fault hs (by rw [hsubmit])]
      refine ⟨h.running_eq, ?_, ?_⟩
      · simp [h.commands]
      · simp [h.errors, isComplaint_complaint]

/-! ## Uses -/

theorem processLines_keeps {P : Session → Prop} (hline : ∀ s line, P s → P (s.processLine line).1)
    (h : P s) (lines : List String) : P (s.processLines lines).1 := by
  induction lines generalizing s with
  | nil => exact h
  | cons line lines ih =>
    by_cases hs : s.running = true
    · rw [processLines_cons_of_running hs]
      exact ih (hline s line h)
    · rw [processLines_of_stopped (by simpa using hs)]
      exact h

/-- What a start and a line keep is kept by every use. -/
theorem after_keeps {P : Session → Prop} (hstart : ∀ s, P s → P s.start)
    (hline : ∀ s line, P s → P (s.processLine line).1) (h : P s) (u : SessionUse) :
    P (s.after u) := by
  cases u with
  | start => exact hstart s h
  | line line => exact hline s line h
  | script lines => exact processLines_keeps hline (hstart s h) lines
  | dialogue input =>
    show P (s.run input).session
    rw [run_eq]
    exact processLines_keeps hline (hstart s h) _

theorem Sound.processLines (h : s.Sound started texts) (lines : List String) :
    (s.processLines lines).1.Sound started (texts ++ (s.processLines lines).2) := by
  induction lines generalizing s texts with
  | nil => simpa [Session.processLines] using h
  | cons line lines ih =>
    cases hs : s.running with
    | false =>
      rw [processLines_of_stopped hs]
      simpa using h
    | true =>
      rw [processLines_cons_of_running hs]
      simpa using ih (h.processLine line)

theorem Sound.after (h : s.Sound started texts) (u : SessionUse) :
    (s.after u).Sound (started || u.starts) (texts ++ s.given u) := by
  cases u with
  | start => simpa [Session.after, given, SessionUse.starts] using h.start
  | line line => simpa [Session.after, given, SessionUse.starts] using h.processLine line
  | script lines =>
    simpa [Session.after, given, SessionUse.starts, runScript] using h.start.processLines lines
  | dialogue input =>
    have hlines := h.start.processLines (Text.readable (Text.lines input))
    rw [processLines_snd] at hlines
    simpa [Session.after, given, SessionUse.starts, run_eq, runScript] using hlines

/-- **Any uses keep a session sound.** -/
theorem Sound.afterAll (h : s.Sound started texts) (uses : List SessionUse) :
    (s.afterAll uses).Sound (started || uses.any SessionUse.starts) (texts ++ s.allGiven uses) := by
  induction uses generalizing s started texts with
  | nil => simpa [Session.afterAll, allGiven] using h
  | cons u uses ih =>
    simpa [Session.afterAll, allGiven, Bool.or_assoc] using ih (h.after u)

/-! ## Sessions that have ended -/

section

variable (hs : s.running = false) (hexited : s.exited = true)
include hs hexited

theorem runScript_of_exited (lines : List String) : s.runScript lines = (s, []) := by
  simp [runScript, Session.start, hexited, processLines_of_stopped hs]

theorem run_of_exited (input : List UInt8) : s.run input = ⟨s, banner, .complete⟩ := by
  have hstart : s.start = s := by simp [Session.start, hexited]
  simp [run_eq, runScript_of_exited hs hexited, hstart, exchanges_of_stopped hs, hs]

theorem after_of_exited (u : SessionUse) : s.after u = s ∧ s.given u = [] := by
  have hstart : s.start = s := by simp [Session.start, hexited]
  cases u with
  | start => exact ⟨hstart, rfl⟩
  | line line => simp [Session.after, given, processLine_of_stopped hs]
  | script lines => simp [Session.after, given, runScript_of_exited hs hexited]
  | dialogue input =>
    simp [Session.after, given, run_of_exited hs hexited, hstart, exchanges_of_stopped hs]

/-- **A session that has ended is changed by no use**, and gives nothing any more. -/
theorem afterAll_of_exited (uses : List SessionUse) :
    s.afterAll uses = s ∧ s.allGiven uses = [] := by
  induction uses with
  | nil => exact ⟨rfl, rfl⟩
  | cons u uses ih =>
    obtain ⟨hafter, hgiven⟩ := after_of_exited hs hexited u
    refine ⟨?_, ?_⟩
    · rw [Session.afterAll, List.foldl_cons, hafter]
      exact ih.1
    · rw [allGiven, hafter, hgiven, ih.2]
      rfl

end

/-! ## The life of a session -/

theorem sound_new {config : Config} {clock : Clock} (h : Session.new config clock = .ok s) :
    s.Sound false [] := by
  unfold Session.new at h
  cases hnew : Calculator.new clock config.settings with
  | error fault => rw [hnew] at h; cases h
  | ok calculator =>
    rw [hnew] at h
    cases h
    exact ⟨rfl, rfl, rfl⟩

/-- **The life of a session** from a config, after any uses.  It is never running when it has ended,
and it is not running exactly when it was never started or has ended.  Once it has ended, no use
changes it, a line and a script give no text, and a dialogue shows the banner alone.  Its counts are
those of the texts that it has given and of the complaints among them; a blank line, and a line
while it is not running, change and give nothing, and a fault leaves it running. -/
theorem session_life {config : Config} {clock : Clock} (hnew : Session.new config clock = .ok s)
    (uses : List SessionUse) :
    let now := s.afterAll uses
    let texts := s.allGiven uses
    ¬ (now.running = true ∧ now.exited = true) ∧
    (now.running = false ↔ (∀ u ∈ uses, u.starts = false) ∨ now.exited = true) ∧
    (now.exited = true →
      (∀ more : List SessionUse, now.afterAll more = now ∧ now.allGiven more = []) ∧
      (∀ line, (now.processLine line).2 = none) ∧ (∀ lines, (now.runScript lines).2 = []) ∧
      ∀ input, (now.run input).output = banner ∧ (now.run input).returned = .ok now.summary) ∧
    now.summary.commands = texts.length ∧
    now.summary.errors = texts.countP isComplaint ∧
    (∀ line, splitLine line = none ∨ now.running = false → now.processLine line = (now, none)) ∧
    ∀ line fault, now.running = true → (now.interpreter.submit line).2 = .error fault →
      (now.processLine line).2 = some (complaint fault) ∧
        (now.processLine line).1.running = true := by
  intro now texts
  have hsound : now.Sound (uses.any SessionUse.starts) texts := by
    simpa using (sound_new hnew).afterAll uses
  have hrunning := hsound.running_eq
  refine ⟨?_, ?_, ?_, hsound.commands, hsound.errors, ?_, ?_⟩
  · rintro ⟨h, hexited⟩
    simp [hexited, h] at hrunning
  · rw [hrunning, Bool.and_eq_false_iff, List.any_eq_false]
    simp
  · intro hexited
    have hs : now.running = false := by simp [hrunning, hexited]
    refine ⟨fun more => afterAll_of_exited hs hexited more, ?_, ?_, ?_⟩
    · intro line
      rw [processLine_of_stopped hs]
    · intro lines
      rw [runScript_of_exited hs hexited]
    · intro input
      rw [run_of_exited hs hexited]
      exact ⟨rfl, rfl⟩
  · rintro line (hblank | hstopped)
    · exact processLine_of_blank hblank
    · exact processLine_of_stopped hstopped line
  · intro line fault h hfault
    rw [processLine_of_fault h hfault]
    exact ⟨rfl, h⟩

/-- Uses of a session before it is started, with a fault and a blank line, with a dialogue that ends
it in the middle, and after that. -/
def mixedUses : List SessionUse :=
  [.line "add 1 2", .script ["div 1 0", " ", "add 1 2"],
    .dialogue [109, 114, 13, 10, 101, 120, 105, 116, 10, 109, 99, 10], .start, .script ["last"]]

/-- A session that was not started. -/
def freshSession : Session :=
  { interpreter := { calculator := { clock := .still ⟨0, 0⟩ } }, config := {} }

theorem mixedUses_life :
    Session.new {} (.still ⟨0, 0⟩) = .ok freshSession ∧
      freshSession.allGiven mixedUses =
        ["Error: Division by zero is not allowed", "add(1, 2) = 3", "Memory recall: 0",
          "Goodbye!"] ∧
      (freshSession.afterAll mixedUses).exited = true ∧
      (freshSession.afterAll mixedUses).summary = ⟨4, 1⟩ ∧
      (freshSession.afterAll mixedUses).running = false := by
  have hnew : Session.new {} (.still ⟨0, 0⟩) = .ok freshSession := rfl
  have hexited : (freshSession.afterAll mixedUses).exited = true := by decide +kernel
  have hlife := session_life hnew mixedUses
  exact ⟨hnew, by decide +kernel, hexited, by decide +kernel, hlife.2.1.mpr (.inr hexited)⟩

end Session

end DeskCalculator
