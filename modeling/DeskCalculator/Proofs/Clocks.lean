import DeskCalculator.Proofs.Separation
import DeskCalculator.Proofs.Sessions

/-!
# DeskCalculator.Proofs.Clocks — no text shows a time

Two calculators that differ only in their clocks, and so in the times of their entries, answer every
instruction alike and go on to differ in nothing else.  So do two interpreters and two sessions: the
clock of a session cannot be told from what the session says.

* `Calculator.SameButTimes.perform`: one instruction.
* `Session.run_of_sameButTimes`: a dialogue, by induction along its lines.
-/

namespace DeskCalculator

/-- An instant that stands for all the others. -/
def someTime : Instant := ⟨0, 0⟩

/-! ## Listings -/

theorem Display.numberedFrom_map {α β : Type} (n : Nat) (render : β → String) (f : α → β)
    (items : List α) : numberedFrom n render (items.map f) = numberedFrom n (render ∘ f) items := by
  induction items generalizing n with
  | nil => rfl
  | cons a items ih => simp [numberedFrom, ih]

namespace Instruction

theorem historyText_stamped (t : Instant) (history : List Calculation) :
    historyText (history.map (·.stamped t)) = historyText history := by
  unfold historyText Display.numbered
  rw [Display.numberedFrom_map, List.isEmpty_map]
  rfl

theorem memoryLogText_stamped (t : Instant) (log : List MemoryAccess) :
    memoryLogText (log.map (·.stamped t)) = memoryLogText log := by
  unfold memoryLogText Display.numbered
  rw [Display.numberedFrom_map, List.isEmpty_map]
  rfl

end Instruction

/-! ## Calculators -/

namespace Calculator

/-- Two calculators that differ only in their clocks, in the readings taken from them, and in the
times of their entries. -/
structure SameButTimes (c c' : Calculator) : Prop where
  last : c.lastResult = c'.lastResult
  settings : c.settings = c'.settings
  value : c.memory.value = c'.memory.value
  history : c.history.map (·.stamped someTime) = c'.history.map (·.stamped someTime)
  log : c.memory.log.map (·.stamped someTime) = c'.memory.log.map (·.stamped someTime)

variable {c c' : Calculator}

theorem SameButTimes.compute (h : c.SameButTimes c') (x : Computation) :
    (c.compute x).2 = (c'.compute x).2 ∧ (c.compute x).1.SameButTimes (c'.compute x).1 := by
  have hvalue : (c.compute x).2 = (c'.compute x).2 := by
    rw [compute_snd, compute_snd, h.settings]
  refine ⟨hvalue, ?_⟩
  cases hx : x.result c.settings with
  | error fault =>
    rw [compute_of_error hx, compute_of_error (h.settings ▸ hx)]
    exact h
  | ok result =>
    rw [compute_of_ok hx, compute_of_ok (h.settings ▸ hx)]
    refine ⟨rfl, h.settings, h.value, ?_, h.log⟩
    rw [record, record, List.map_append, List.map_append, h.history]
    rfl

theorem SameButTimes.access (h : c.SameButTimes c') (request : MemoryRequest) :
    (c.access request).2 = (c'.access request).2 ∧
      (c.access request).1.SameButTimes (c'.access request).1 := by
  have hvalue := h.value
  refine ⟨by simp [Calculator.access, Memory.access, hvalue], h.last, h.settings, ?_, h.history, ?_⟩
  · simp [Calculator.access, Memory.access, hvalue]
  · simp only [Calculator.access, Memory.access, List.map_append, h.log, hvalue]
    rfl

/-- **Calculators that differ only in times answer an instruction alike**, and still differ only in
times then. -/
theorem SameButTimes.perform (h : c.SameButTimes c') (help : String) (i : Instruction) :
    (i.perform help c).2 = (i.perform help c').2 ∧
      (i.perform help c).1.SameButTimes (i.perform help c').1 := by
  cases i with
  | compute x =>
    obtain ⟨hanswer, hsame⟩ := h.compute x
    exact ⟨by simp [Instruction.perform, Instruction.reply, hanswer], hsame⟩
  | chain op b =>
    obtain ⟨hanswer, hsame⟩ := h.compute (.binary op.operation c.lastResult b)
    simp only [Instruction.perform, Instruction.reply, chain, ← h.last]
    exact ⟨by rw [hanswer], hsame⟩
  | memory request =>
    obtain ⟨hanswer, hsame⟩ := h.access request
    exact ⟨by simp [Instruction.perform, Instruction.say, hanswer], hsame⟩
  | showLast => exact ⟨by simp [Instruction.perform, Instruction.say, h.last], h⟩
  | showHistory =>
    refine ⟨?_, h⟩
    have htext := congrArg Instruction.historyText h.history
    rw [Instruction.historyText_stamped, Instruction.historyText_stamped] at htext
    simp [Instruction.perform, Instruction.say, htext]
  | showMemoryLog =>
    refine ⟨?_, h⟩
    have htext := congrArg Instruction.memoryLogText h.log
    rw [Instruction.memoryLogText_stamped, Instruction.memoryLogText_stamped] at htext
    simp [Instruction.perform, Instruction.say, htext]
  | showSettings => exact ⟨by simp [Instruction.perform, Instruction.say, h.settings], h⟩
  | setAngleUnit text =>
    simp only [Instruction.perform, Instruction.reply, setAngleUnit]
    cases AngleUnit.ofName text with
    | ok unit => exact ⟨rfl, h.last, by simp [h.settings], h.value, h.history, h.log⟩
    | error fault => exact ⟨rfl, h⟩
  | setPrecision n =>
    simp only [Instruction.perform, Instruction.reply, setPrecision]
    cases Settings.checkPrecision n with
    | ok precision => exact ⟨rfl, h.last, by simp [h.settings], h.value, h.history, h.log⟩
    | error fault => exact ⟨rfl, h⟩
  | clearHistory => exact ⟨rfl, rfl, h.settings, h.value, rfl, h.log⟩
  | showConstant k => exact ⟨rfl, h⟩
  | help => exact ⟨rfl, h⟩
  | exit => exact ⟨rfl, h⟩

end Calculator

/-! ## Interpreters -/

namespace Interpreter

/-- Two interpreters that differ only in times. -/
structure SameButTimes (i j : Interpreter) : Prop where
  calculator : i.calculator.SameButTimes j.calculator
  catalogue : i.catalogue = j.catalogue
  strictness : i.strictness = j.strictness
  running : i.running = j.running

variable {i j : Interpreter}

theorem SameButTimes.answer (h : i.SameButTimes j) {step step' : Calculator × Except Fault Reply}
    (hanswer : step.2 = step'.2) (hstep : step.1.SameButTimes step'.1) :
    (i.answer step).2 = (j.answer step').2 ∧ (i.answer step).1.SameButTimes (j.answer step').1 := by
  obtain ⟨c, outcome⟩ := step
  obtain ⟨c', outcome'⟩ := step'
  obtain rfl : outcome = outcome' := hanswer
  cases outcome with
  | error fault => exact ⟨rfl, hstep, h.catalogue, h.strictness, h.running⟩
  | ok reply =>
    refine ⟨rfl, ?_⟩
    by_cases hexits : reply.exits
    · simp only [Interpreter.answer, hexits, if_true]
      exact ⟨hstep, h.catalogue, h.strictness, rfl⟩
    · simp only [Interpreter.answer, hexits]
      exact ⟨hstep, h.catalogue, h.strictness, h.running⟩

theorem SameButTimes.submit (h : i.SameButTimes j) (line : String) :
    (i.submit line).2 = (j.submit line).2 ∧ (i.submit line).1.SameButTimes (j.submit line).1 := by
  rw [submit_eq, submit_eq, h.catalogue, h.strictness]
  cases j.catalogue.reading j.strictness line with
  | blank => exact ⟨rfl, h⟩
  | refused fault => exact ⟨rfl, h⟩
  | instruction instruction =>
    have hperform := h.calculator.perform j.catalogue.help instruction
    simp only [follow, h.catalogue]
    exact h.answer hperform.1 hperform.2

end Interpreter

/-! ## Sessions -/

namespace Session

/-- Two sessions that differ only in times. -/
structure SameButTimes (s s' : Session) : Prop where
  interpreter : s.interpreter.SameButTimes s'.interpreter
  config : s.config = s'.config
  summary : s.summary = s'.summary
  exited : s.exited = s'.exited

variable {s s' : Session}

theorem SameButTimes.running (h : s.SameButTimes s') : s.running = s'.running :=
  h.interpreter.running

theorem SameButTimes.start (h : s.SameButTimes s') : s.start.SameButTimes s'.start := by
  obtain ⟨hcalculator, hcatalogue, hstrictness, -⟩ := h.interpreter
  have hexited := h.exited
  unfold Session.start
  by_cases hs : s.exited = true
  · rw [if_pos hs, if_pos (hexited ▸ hs)]
    exact h
  · rw [if_neg hs, if_neg (hexited ▸ hs)]
    exact ⟨⟨hcalculator, hcatalogue, hstrictness, rfl⟩, h.config, h.summary, hexited⟩

theorem SameButTimes.processLine (h : s.SameButTimes s') (line : String) :
    (s.processLine line).2 = (s'.processLine line).2 ∧
      (s.processLine line).1.SameButTimes (s'.processLine line).1 := by
  have hrunning := h.running
  by_cases hs : s.running = true
  · obtain ⟨hanswer, hsame⟩ := h.interpreter.submit line
    have hsame_running := hsame.running
    rcases hsubmit : s.interpreter.submit line with ⟨i, outcome⟩
    rcases hsubmit' : s'.interpreter.submit line with ⟨j, outcome'⟩
    simp only [hsubmit, hsubmit'] at hanswer hsame hsame_running
    subst hanswer
    simp only [Session.processLine, ← hrunning, hs, hsubmit, hsubmit', Bool.not_true,
      Bool.false_eq_true, if_false]
    cases outcome with
    | error fault => exact ⟨rfl, hsame, h.config, by rw [h.summary], h.exited⟩
    | ok answer =>
      cases answer with
      | none => exact ⟨rfl, hsame, h.config, h.summary, h.exited⟩
      | some reply =>
        exact ⟨rfl, hsame, h.config, by rw [h.summary], by rw [h.exited, hsame_running]⟩
  · have hstopped : s.running = false := by simpa using hs
    rw [processLine_of_stopped hstopped, processLine_of_stopped (hrunning ▸ hstopped)]
    exact ⟨rfl, h⟩

theorem SameButTimes.processLines (h : s.SameButTimes s') (lines : List String) :
    s.exchanges lines = s'.exchanges lines ∧
      (s.processLines lines).1.SameButTimes (s'.processLines lines).1 := by
  induction lines generalizing s s' with
  | nil => exact ⟨rfl, h⟩
  | cons line lines ih =>
    have hrunning := h.running
    by_cases hs : s.running = true
    · have hs' : s'.running = true := hrunning ▸ hs
      obtain ⟨htext, hsame⟩ := h.processLine line
      obtain ⟨hrest, hafter⟩ := ih hsame
      rw [exchanges_cons_of_running hs, exchanges_cons_of_running hs', htext, hrest,
        processLines_cons_of_running hs, processLines_cons_of_running hs']
      exact ⟨rfl, hafter⟩
    · have hstopped : s.running = false := by simpa using hs
      have hstopped' : s'.running = false := hrunning ▸ hstopped
      rw [exchanges_of_stopped hstopped, exchanges_of_stopped hstopped',
        processLines_of_stopped hstopped, processLines_of_stopped hstopped']
      exact ⟨rfl, h⟩

/-- **Sessions that differ only in times show the same in a dialogue**, and come to the same end. -/
theorem run_of_sameButTimes (h : s.SameButTimes s') (input : List UInt8) :
    (s.run input).output = (s'.run input).output ∧ (s.run input).ending = (s'.run input).ending ∧
      (s.run input).session.SameButTimes (s'.run input).session := by
  obtain ⟨htexts, hafter⟩ := h.start.processLines (Text.readable (Text.lines input))
  have hrunning := hafter.running
  simp only [run_eq, runScript, htexts, hrunning, h.config]
  exact ⟨rfl, rfl, hafter⟩

end Session

end DeskCalculator
