import DeskCalculator.Session.Dialogue

/-!
# DeskCalculator.Proofs.Dialogues — a dialogue over bytes does what a script of its lines does

`Splits` says which lines a byte stream falls into, and `readable` takes their texts, up to the
first line that is not UTF-8.  `exchanges` are the lines that a running session carries out, each
with what it says to it; both the dialogue and the script are told from them.

* `splits_iff`: the lines of a byte stream are the ones into which it falls.
* `converse_eq`: what a dialogue over some lines leaves behind, by induction along the lines.
* `run_eq_foldl`: a dialogue is the same when it is carried on by turns.
* `run_eq_runScript`: a dialogue leaves the session that the script of its readable lines leaves,
  and shows the banner, the exchanges, and a last prompt if the session is still running then.
-/

namespace DeskCalculator

/-! ## Lines -/

namespace Text

/-- A line without the carriage return at its end, if it has one there. -/
def withoutReturn (bytes : List UInt8) : List UInt8 :=
  if bytes.getLast? = some 13 then bytes.dropLast else bytes

/-- `Splits bytes lines`: the byte stream falls into these lines.  A line feed ends a line, and
takes one carriage return before it along; what is left behind the last line feed is a line as it
stands, unless nothing is. -/
inductive Splits : List UInt8 → List (List UInt8) → Prop
  | nil : Splits [] []
  | unended {bytes : List UInt8} (some : bytes ≠ []) (plain : 10 ∉ bytes) : Splits bytes [bytes]
  | ended {bytes rest : List UInt8} {lines : List (List UInt8)} (plain : 10 ∉ bytes)
      (more : Splits rest lines) : Splits (bytes ++ 10 :: rest) (withoutReturn bytes :: lines)

theorem lineOfReverse_reverse (bytes : List UInt8) :
    lineOfReverse bytes.reverse = withoutReturn bytes := by
  rcases List.eq_nil_or_concat bytes with rfl | ⟨start, b, rfl⟩
  · rfl
  · by_cases hb : b = 13
    · simp [lineOfReverse, withoutReturn, hb]
    · have hmatch : lineOfReverse (b :: start.reverse) = (b :: start.reverse).reverse := by
        unfold lineOfReverse
        split
        · simp_all
        · rfl
      simp [withoutReturn, hb, hmatch]

theorem linesFrom_of_plain {start bytes : List UInt8} (h : 10 ∉ bytes) :
    linesFrom start bytes = linesFrom (bytes.reverse ++ start) [] := by
  induction bytes generalizing start with
  | nil => rfl
  | cons b bytes ih =>
    rw [List.mem_cons, not_or] at h
    have hb : b ≠ 10 := Ne.symm h.1
    simp [linesFrom, hb, ih h.2]

theorem linesFrom_append {start bytes rest : List UInt8} (h : 10 ∉ bytes) :
    linesFrom start (bytes ++ 10 :: rest) =
      lineOfReverse (bytes.reverse ++ start) :: lines rest := by
  induction bytes generalizing start with
  | nil => simp [linesFrom, lines]
  | cons b bytes ih =>
    rw [List.mem_cons, not_or] at h
    have hb : b ≠ 10 := Ne.symm h.1
    simp [linesFrom, hb, ih h.2]

theorem Splits.eq_lines {bytes : List UInt8} {ls : List (List UInt8)} (h : Splits bytes ls) :
    ls = lines bytes := by
  induction h with
  | nil => rfl
  | @unended bytes some plain =>
    have hne : bytes.reverse ≠ [] := by simpa using some
    rw [lines, linesFrom_of_plain plain, linesFrom]
    simp [some]
  | @ended bytes rest ls plain more ih =>
    rw [lines, linesFrom_append plain, List.append_nil, lineOfReverse_reverse, ih]

/-- The induction is along the bytes; those of the line that has begun are carried along, and there
is no line feed among them. -/
theorem splits_linesFrom {start : List UInt8} (h : 10 ∉ start) (bytes : List UInt8) :
    Splits (start.reverse ++ bytes) (linesFrom start bytes) := by
  induction bytes generalizing start with
  | nil =>
    rw [List.append_nil, linesFrom]
    by_cases hs : start = []
    · simpa [hs] using Splits.nil
    · simpa [hs] using Splits.unended (by simpa using hs) (by simpa using h)
  | cons b bytes ih =>
    by_cases hb : b = 10
    · subst hb
      have hline : lineOfReverse start = withoutReturn start.reverse := by
        rw [← lineOfReverse_reverse, List.reverse_reverse]
      have hrest : Splits bytes (lines bytes) := ih List.not_mem_nil
      rw [linesFrom, if_pos rfl, hline]
      exact .ended (by simpa using h) hrest
    · have hstart : 10 ∉ b :: start := by
        rw [List.mem_cons, not_or]
        exact ⟨Ne.symm hb, h⟩
      rw [linesFrom, if_neg hb]
      simpa using ih hstart

/-- **The lines of a byte stream** are the ones into which it falls. -/
theorem splits_iff {bytes : List UInt8} {ls : List (List UInt8)} :
    Splits bytes ls ↔ ls = lines bytes := by
  constructor
  · exact Splits.eq_lines
  · rintro rfl
    exact splits_linesFrom List.not_mem_nil bytes

/-- Only a carriage return before a line feed is dropped. -/
example : lines [97, 13, 13, 10, 10, 98, 13] = [[97, 13], [], [98, 13]] := rfl

/-- The texts of some lines, up to the first line that is not UTF-8. -/
def readable : List (List UInt8) → List String
  | [] => []
  | bytes :: rest =>
    match decode? bytes with
    | some line => line :: readable rest
    | none => []

theorem readable_cons_of_some {bytes : List UInt8} {line : String} (h : decode? bytes = some line)
    (rest : List (List UInt8)) : readable (bytes :: rest) = line :: readable rest := by
  simp [readable, h]

theorem readable_cons_of_none {bytes : List UInt8} (h : decode? bytes = none)
    (rest : List (List UInt8)) : readable (bytes :: rest) = [] := by
  simp [readable, h]

end Text

/-! ## Scripts -/

namespace Session

variable {s : Session}

theorem start_config (s : Session) : s.start.config = s.config := by
  unfold start
  split <;> rfl

theorem processLine_of_stopped (h : s.running = false) (line : String) :
    s.processLine line = (s, none) := by
  simp [processLine, h]

theorem processLines_of_stopped (h : s.running = false) (lines : List String) :
    s.processLines lines = (s, []) := by
  cases lines with
  | nil => rfl
  | cons line lines => simp [processLines, h]

theorem processLines_cons_of_running (h : s.running = true) (line : String) (lines : List String) :
    s.processLines (line :: lines) =
      (((s.processLine line).1.processLines lines).1,
        (s.processLine line).2.toList ++ ((s.processLine line).1.processLines lines).2) := by
  simp [processLines, h]

/-- A line that a running session carries out gives nothing, a reply, or a complaint. -/
theorem processLine_cases (h : s.running = true) (line : String) :
    (∃ i, s.interpreter.submit line = (i, .ok none) ∧
      s.processLine line = ({ s with interpreter := i }, none)) ∨
    (∃ i reply, s.interpreter.submit line = (i, .ok (some reply)) ∧
      s.processLine line =
        ({ s with
            interpreter := i
            summary := ⟨s.summary.commands + 1, s.summary.errors⟩
            exited := s.exited || !i.running },
          some reply.text)) ∨
    ∃ i fault, s.interpreter.submit line = (i, .error fault) ∧
      s.processLine line =
        ({ s with
            interpreter := i
            summary := ⟨s.summary.commands + 1, s.summary.errors + 1⟩ },
          some (complaint fault)) := by
  rcases hsubmit : s.interpreter.submit line with ⟨i, outcome⟩
  cases outcome with
  | error fault => exact .inr (.inr ⟨i, fault, rfl, by simp [processLine, h, hsubmit]⟩)
  | ok answer =>
    cases answer with
    | none => exact .inl ⟨i, rfl, by simp [processLine, h, hsubmit]⟩
    | some reply => exact .inr (.inl ⟨i, reply, rfl, by simp [processLine, h, hsubmit]⟩)

theorem processLine_config (s : Session) (line : String) :
    (s.processLine line).1.config = s.config := by
  cases hs : s.running with
  | false => rw [processLine_of_stopped hs]
  | true =>
    rcases processLine_cases hs line with ⟨i, -, h⟩ | ⟨i, reply, -, h⟩ | ⟨i, fault, -, h⟩ <;> rw [h]

/-- The lines that are carried out of some lines, as long as the session is running, each with the
text that it gives. -/
def exchanges (s : Session) : List String → List (String × Option String)
  | [] => []
  | line :: rest =>
    if s.running then (line, (s.processLine line).2) :: (s.processLine line).1.exchanges rest
    else []

theorem exchanges_of_stopped (h : s.running = false) (lines : List String) :
    s.exchanges lines = [] := by
  cases lines with
  | nil => rfl
  | cons line lines => simp [exchanges, h]

theorem exchanges_cons_of_running (h : s.running = true) (line : String) (lines : List String) :
    s.exchanges (line :: lines) =
      (line, (s.processLine line).2) :: (s.processLine line).1.exchanges lines := by
  simp [exchanges, h]

/-- Lines are carried out from the first on; if some are left, the session has stopped. -/
theorem exchanges_fst (s : Session) (lines : List String) :
    ∃ rest, lines = (s.exchanges lines).map Prod.fst ++ rest ∧
      (rest ≠ [] → (s.processLines lines).1.running = false) := by
  induction lines generalizing s with
  | nil => exact ⟨[], rfl, nofun⟩
  | cons line lines ih =>
    cases hs : s.running with
    | false =>
      refine ⟨line :: lines, ?_, fun _ => ?_⟩
      · rw [exchanges_of_stopped hs]
        rfl
      · rw [processLines_of_stopped hs]
        exact hs
    | true =>
      obtain ⟨rest, hlines, hstopped⟩ := ih (s.processLine line).1
      rw [exchanges_cons_of_running hs, processLines_cons_of_running hs]
      exact ⟨rest, congrArg (line :: ·) hlines, hstopped⟩

/-- The texts of a script are those of its exchanges. -/
theorem processLines_snd (s : Session) (lines : List String) :
    (s.processLines lines).2 = (s.exchanges lines).filterMap Prod.snd := by
  induction lines generalizing s with
  | nil => rfl
  | cons line lines ih =>
    cases hs : s.running with
    | false => rw [processLines_of_stopped hs, exchanges_of_stopped hs]; rfl
    | true =>
      rw [processLines_cons_of_running hs, exchanges_cons_of_running hs, ih]
      cases (s.processLine line).2 with
      | none => rfl
      | some text => rfl

/-- A line is carried out when the session is still running after the lines before it, and then
gives what `processLine` gives in that session. -/
theorem exchanges_getElem? (s : Session) (lines : List String) (k : Nat) :
    (s.exchanges lines)[k]? =
      if (s.processLines (lines.take k)).1.running then
        lines[k]?.map fun line => (line, ((s.processLines (lines.take k)).1.processLine line).2)
      else none := by
  induction lines generalizing s k with
  | nil => simp [exchanges]
  | cons line lines ih =>
    cases hs : s.running with
    | false =>
      have hstopped : (s.processLines ((line :: lines).take k)).1.running = false := by
        rw [processLines_of_stopped hs]
        exact hs
      rw [exchanges_of_stopped hs, hstopped]
      rfl
    | true =>
      rw [exchanges_cons_of_running hs]
      cases k with
      | zero => simp [processLines, hs]
      | succ k =>
        rw [List.getElem?_cons_succ, ih, List.take_succ_cons, processLines_cons_of_running hs,
          List.getElem?_cons_succ]

/-! ## Dialogues -/

/-- What a dialogue shows for a line that is carried out and the text that it gives. -/
def shown (config : Config) (exchange : String × Option String) : String :=
  config.prompt ++ (if config.echo then exchange.1 ++ "\n" else "") ++
    exchange.2.elim "" (· ++ "\n")

theorem exchange_fst (s : Session) (line : String) :
    (s.exchange line).1 = (s.processLine line).1 := rfl

theorem exchange_snd (s : Session) (line : String) :
    s.config.prompt ++ (s.exchange line).2 = shown s.config (line, (s.processLine line).2) := by
  simp [exchange, shown, String.append_assoc]

theorem converse_cons_of_running (hs : s.running = true) {bytes : List UInt8} {line : String}
    (hline : Text.decode? bytes = some line) (lines : List (List UInt8)) :
    s.converse (bytes :: lines) =
      let d := (s.processLine line).1.converse lines
      { d with output := shown s.config (line, (s.processLine line).2) ++ d.output } := by
  rw [← exchange_snd, ← exchange_fst]
  simp [converse, hs, hline]

/-- What a dialogue over some lines leaves behind: the session of their script, what is shown for
the exchanges, a last prompt if the session is still running, and then, if there are more lines, a
line that is not UTF-8. -/
theorem converse_eq (s : Session) (lines : List (List UInt8)) :
    let after := (s.processLines (Text.readable lines)).1
    s.converse lines =
      ⟨after,
        String.join ((s.exchanges (Text.readable lines)).map (shown s.config)) ++
          (if after.running then s.config.prompt else ""),
        if after.running ∧ (Text.readable lines).length < lines.length then .invalidText
        else .complete⟩ := by
  induction lines generalizing s with
  | nil => simp [converse, Text.readable, processLines, exchanges]
  | cons bytes lines ih =>
    cases hs : s.running with
    | false => simp [converse, processLines_of_stopped, exchanges_of_stopped, hs]
    | true =>
      cases hbytes : Text.decode? bytes with
      | none =>
        simp [converse, hs, hbytes, Text.readable_cons_of_none hbytes, processLines, exchanges]
      | some line =>
        rw [converse_cons_of_running hs hbytes, ih, processLine_config,
          Text.readable_cons_of_some hbytes, processLines_cons_of_running hs,
          exchanges_cons_of_running hs]
        simp [String.append_assoc]

theorem run_eq (s : Session) (input : List UInt8) :
    let texts := Text.readable (Text.lines input)
    let after := (s.runScript texts).1
    s.run input =
      ⟨after,
        banner ++ String.join ((s.start.exchanges texts).map (shown s.config)) ++
          (if after.running then s.config.prompt else ""),
        if after.running ∧ texts.length < (Text.lines input).length then .invalidText
        else .complete⟩ := by
  simp only [run, converse_eq, start_config, String.append_assoc]
  rfl

end Session

/-- What the caller of a dialogue gets: the counts of the session, unless a line broke it off. -/
def Dialogue.returned (d : Dialogue) : Except Ending Summary :=
  match d.ending with
  | .complete => .ok d.session.summary
  | .invalidText => .error .invalidText

theorem Dialogue.returned_ite (s : Session) (output : String) (p : Prop) [Decidable p] :
    Dialogue.returned ⟨s, output, if p then .invalidText else .complete⟩ =
      if p then .error .invalidText else .ok s.summary := by
  by_cases h : p <;> simp [returned, h]

/-! ## Dialogues by turns -/

namespace Dialogue

/-- A dialogue after one more line; it takes none when it does not wait for one. -/
def hear (d : Dialogue) (bytes : List UInt8) : Dialogue :=
  if d.waits then
    let turn := d.session.turn bytes
    { turn with output := d.output ++ turn.output }
  else d

theorem foldl_hear_of_over {d : Dialogue} (h : d.waits = false) (lines : List (List UInt8)) :
    lines.foldl hear d = d := by
  induction lines with
  | nil => rfl
  | cons bytes lines ih => rwa [List.foldl_cons, hear, h, if_neg Bool.false_ne_true]

/-- The induction is along the lines; what was shown before them and the prompt for the first of
them are carried along. -/
theorem foldl_hear (s : Session) (before : String) (lines : List (List UInt8)) :
    lines.foldl hear ⟨s, before ++ s.nextPrompt, .complete⟩ =
      { s.converse lines with output := before ++ (s.converse lines).output } := by
  induction lines generalizing s before with
  | nil => rfl
  | cons bytes lines ih =>
    rw [List.foldl_cons]
    cases hs : s.running with
    | false =>
      have hwaits : waits ⟨s, before ++ s.nextPrompt, .complete⟩ = false := by simp [waits, hs]
      rw [hear, hwaits, if_neg Bool.false_ne_true, foldl_hear_of_over hwaits]
      simp [Session.converse, Session.nextPrompt, hs]
    | true =>
      have hwaits : waits ⟨s, before ++ s.nextPrompt, .complete⟩ = true := by simp [waits, hs]
      rw [hear, hwaits, if_pos rfl]
      cases hbytes : Text.decode? bytes with
      | none =>
        have hturn : s.turn bytes = ⟨s, "", .invalidText⟩ := by simp [Session.turn, hbytes]
        simp only [hturn]
        rw [foldl_hear_of_over (by simp [waits])]
        simp [Session.converse, Session.nextPrompt, hs, hbytes]
      | some line =>
        have hturn : s.turn bytes =
            ⟨(s.exchange line).1, (s.exchange line).2 ++ (s.exchange line).1.nextPrompt,
              .complete⟩ := by
          simp [Session.turn, hbytes]
        simp only [hturn, ← String.append_assoc]
        rw [ih]
        simp [Session.converse, Session.nextPrompt, hs, hbytes, String.append_assoc]

end Dialogue

namespace Session

/-- **A dialogue is the same when it is carried on by turns.** -/
theorem run_eq_foldl (s : Session) (input : List UInt8) :
    s.run input = (Text.lines input).foldl Dialogue.hear s.greet :=
  (Dialogue.foldl_hear s.start banner (Text.lines input)).symm

/-! ## Dialogues and scripts -/

/-- To start a session that has not ended is to let it run, and changes nothing else. -/
theorem start_of_not_exited {s : Session} (h : s.exited = false) :
    s.start = { s with interpreter := { s.interpreter with running := true } } := by
  rw [start, h, if_neg Bool.false_ne_true]
  rfl

/-- **A dialogue does what the script of its lines does.**  The lines are those into which the input
falls, and their texts go up to the first line that is not UTF-8.  A session that has not ended is
running when the first of them is read, and otherwise as it was.  They are carried out from the
first on, as long as the session is running, so that the last of them that is carried out is the one
that ends the session, if there is one.  The dialogue leaves the session that the script leaves,
with its calculator, its counts and its state.  It shows the banner, then for each line that is
carried out the prompt, the line again if the config says so, and the text that is given for it, and
then one more prompt if the session is still running; the script gives the same texts.  If there is
a line left that is not UTF-8, the dialogue breaks off with the session still running; otherwise it
returns the counts.  It is the same when it is carried on by turns. -/
theorem run_eq_runScript (s : Session) (input : List UInt8) :
    let lines := Text.lines input
    let texts := Text.readable lines
    let after := (s.runScript texts).1
    let said := s.start.exchanges texts
    (∀ ls, Text.Splits input ls ↔ ls = lines) ∧
    (s.exited = false →
      s.start = { s with interpreter := { s.interpreter with running := true } }) ∧
    (∃ rest, texts = said.map Prod.fst ++ rest ∧ (rest ≠ [] → after.running = false)) ∧
    (∀ k, said[k]? =
      if (s.runScript (texts.take k)).1.running then
        texts[k]?.map fun line => (line, ((s.runScript (texts.take k)).1.processLine line).2)
      else none) ∧
    (s.runScript texts).2 = said.filterMap Prod.snd ∧
    (s.run input).session = after ∧
    (s.run input).output =
      banner ++ String.join (said.map (shown s.config)) ++
        (if after.running then s.config.prompt else "") ∧
    (s.run input).returned =
      (if after.running ∧ texts.length < lines.length then .error .invalidText
      else .ok after.summary) ∧
    s.run input = lines.foldl Dialogue.hear s.greet := by
  intro lines texts after said
  have hrun := s.run_eq input
  refine ⟨fun ls => Text.splits_iff, start_of_not_exited, s.start.exchanges_fst texts,
    s.start.exchanges_getElem? texts, s.start.processLines_snd texts, ?_, ?_, ?_,
    s.run_eq_foldl input⟩
  · rw [hrun]
  · rw [hrun]
  · rw [hrun, Dialogue.returned_ite]

/-- A session that shows each line again, with a prompt of its own. -/
def echoing : Session :=
  { interpreter := { calculator := { clock := .still ⟨0, 0⟩ } }
    config := { prompt := "$ ", echo := true } }

/-- Three lines, of which the third ends the session, a line that is not UTF-8, and one more. -/
def endedInput : List UInt8 :=
  "add 1 2\r\n \nEXIT\n".toUTF8.toList ++ [255, 10] ++ "mr".toUTF8.toList

/-- A line, one that is not UTF-8, and one more. -/
def brokenInput : List UInt8 := "c+ x\n".toUTF8.toList ++ [255, 10] ++ "exit".toUTF8.toList

theorem run_eq_runScript_echoing :
    ((echoing.run endedInput).output =
        "calcshell\nType 'help' for available commands, 'exit' to quit\n" ++
          "$ add 1 2\nadd(1, 2) = 3\n$  \n$ EXIT\nGoodbye!\n" ∧
      (echoing.run endedInput).returned = .ok ⟨2, 0⟩ ∧
      (echoing.run endedInput).session.running = false) ∧
    (echoing.run brokenInput).output =
        "calcshell\nType 'help' for available commands, 'exit' to quit\n" ++
          "$ c+ x\n0 + NaN = NaN\n$ " ∧
      (echoing.run brokenInput).returned = .error .invalidText ∧
      (echoing.run brokenInput).session.running = true := by
  obtain ⟨-, -, -, -, -, hended, hendedOutput, hendedReturned, -⟩ :=
    run_eq_runScript echoing endedInput
  obtain ⟨-, -, -, -, -, hbroken, hbrokenOutput, hbrokenReturned, -⟩ :=
    run_eq_runScript echoing brokenInput
  refine ⟨⟨?_, ?_, ?_⟩, ?_, ?_, ?_⟩
  · rw [hendedOutput]
    decide +kernel
  · rw [hendedReturned, if_neg (by decide +kernel)]
    exact congrArg Except.ok (by decide +kernel)
  · rw [hended]
    decide +kernel
  · rw [hbrokenOutput]
    decide +kernel
  · rw [hbrokenReturned, if_pos (by decide +kernel)]
  · rw [hbroken]
    decide +kernel

end Session

end DeskCalculator
