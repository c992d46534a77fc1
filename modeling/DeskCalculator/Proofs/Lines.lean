import DeskCalculator.Interpreter
import DeskCalculator.Proofs.Calls

/-!
# DeskCalculator.Proofs.Lines — the calls that lines make

A line makes at most one call, and which one it makes can be told from the catalogue and the
strictness alone (`Catalogue.call?`).  Neither of the two is changed by a line, nor by lines one
after the other (`Interpreter.feed`).

* `Command.invoke_cases`, `submit_cases`: what can become of a command and of a line; nothing opens
  `invoke` or `submit` again.
* `submit_fst`: a line does to the calculator what its call does.
-/

namespace DeskCalculator

/-! ## Instructions and commands -/

/-- The call that an instruction makes; one that only shows something makes none. -/
def Instruction.call? : Instruction → Option Call
  | compute x => some (.compute x)
  | chain op b => some (.chain op b)
  | memory request => some (.access request)
  | setAngleUnit text => some (.setAngleUnit text)
  | setPrecision n => some (.setPrecision n)
  | clearHistory => some .clearHistory
  | showLast | showHistory | showMemoryLog | showSettings | showConstant _ | help | exit => none

theorem Instruction.perform_fst (help : String) (i : Instruction) (c : Calculator) :
    (i.perform help c).1 = c.run i.call?.toList := by
  cases i <;> rfl

/-- The call that a command makes with some arguments; it makes none when they are too many or too
few, or cannot be read. -/
def Command.call? (command : Command) (a : Arguments) : Option Call :=
  if a.words.length ≠ command.arity then none
  else
    match command.action.read a with
    | .ok i => i.call?
    | .error _ => none

/-- A command is refused before anything is done, or the instruction that was read is performed. -/
theorem Command.invoke_cases (command : Command) (a : Arguments) :
    (∃ fault, command.call? a = none ∧ ∀ help c, command.invoke help a c = (c, .error fault)) ∨
      ∃ i, a.words.length = command.arity ∧ command.action.read a = .ok i ∧
        command.call? a = i.call? ∧ ∀ help c, command.invoke help a c = i.perform help c := by
  unfold Command.invoke Command.carryOut Command.call?
  by_cases harity : a.words.length = command.arity
  · simp only [if_neg (not_not_intro harity), Action.perform]
    cases hread : command.action.read a with
    | ok i => exact .inr ⟨i, harity, rfl, rfl, fun _ _ => rfl⟩
    | error fault => exact .inl ⟨fault, rfl, fun _ _ => rfl⟩
  · rw [if_pos harity]
    exact .inl ⟨.wrongUsage command.usage, rfl, fun _ _ => if_pos harity⟩

theorem Command.invoke_fst (command : Command) (help : String) (a : Arguments) (c : Calculator) :
    (command.invoke help a c).1 = c.run (command.call? a).toList := by
  rcases command.invoke_cases a with ⟨fault, hcall, hinvoke⟩ | ⟨i, -, -, hcall, hinvoke⟩
  · rw [hcall, hinvoke]
    rfl
  · rw [hcall, hinvoke]
    exact i.perform_fst help c

/-- The call that a line makes. -/
def Catalogue.call? (catalogue : Catalogue) (strictness : Strictness) (line : String) :
    Option Call :=
  match splitLine line with
  | none => none
  | some (name, words) => (catalogue.find? name).bind (·.call? ⟨words, strictness⟩)

/-! ## Lines -/

namespace Interpreter

/-- Passing on an outcome changes the calculator and whether the interpreter runs, nothing else. -/
theorem answer_fst (i : Interpreter) (step : Calculator × Except Fault Reply) :
    ∃ running, (i.answer step).1 = { i with calculator := step.1, running } := by
  obtain ⟨c, outcome⟩ := step
  cases outcome with
  | ok reply =>
    by_cases h : reply.exits
    · exact ⟨false, by simp [answer, stop, h]⟩
    · exact ⟨i.running, by simp [answer, h]⟩
  | error fault => exact ⟨i.running, rfl⟩

/-- A line names no command and does nothing, or the command that it names is invoked. -/
theorem submit_cases (i : Interpreter) (line : String) :
    (∃ outcome, i.catalogue.call? i.strictness line = none ∧ i.submit line = (i, outcome)) ∨
      ∃ (command : Command) (words : List String),
        i.catalogue.call? i.strictness line = command.call? ⟨words, i.strictness⟩ ∧
        i.submit line =
          i.answer (command.invoke i.catalogue.help ⟨words, i.strictness⟩ i.calculator) := by
  unfold submit Catalogue.call?
  cases splitLine line with
  | none => exact .inl ⟨_, rfl, rfl⟩
  | some parts =>
    obtain ⟨name, words⟩ := parts
    cases hfind : i.catalogue.find? name with
    | none =>
      simp only [hfind, Option.bind_none]
      exact .inl ⟨_, trivial, rfl⟩
    | some command =>
      simp only [hfind, Option.bind_some]
      exact .inr ⟨command, words, rfl, rfl⟩

/-- **A line does to the calculator what its call does**, and leaves the catalogue and the
strictness alone. -/
theorem submit_fst (i : Interpreter) (line : String) :
    ∃ running, (i.submit line).1 =
      { i with
        calculator := i.calculator.run (i.catalogue.call? i.strictness line).toList
        running } := by
  rcases i.submit_cases line with ⟨outcome, hcall, hsubmit⟩ | ⟨command, words, hcall, hsubmit⟩
  · rw [hcall, hsubmit]
    exact ⟨i.running, rfl⟩
  · rw [hcall, hsubmit, ← command.invoke_fst i.catalogue.help]
    exact i.answer_fst _

theorem submit_calculator (i : Interpreter) (line : String) :
    (i.submit line).1.calculator =
      i.calculator.run (i.catalogue.call? i.strictness line).toList := by
  obtain ⟨running, h⟩ := i.submit_fst line
  rw [h]

@[simp] theorem submit_catalogue (i : Interpreter) (line : String) :
    (i.submit line).1.catalogue = i.catalogue := by
  obtain ⟨running, h⟩ := i.submit_fst line
  rw [h]

@[simp] theorem submit_strictness (i : Interpreter) (line : String) :
    (i.submit line).1.strictness = i.strictness := by
  obtain ⟨running, h⟩ := i.submit_fst line
  rw [h]

/-! ## Several lines -/

/-- The interpreter after some lines. -/
def feed (i : Interpreter) (lines : List String) : Interpreter :=
  lines.foldl (fun i line => (i.submit line).1) i

@[simp] theorem feed_cons (i : Interpreter) (line : String) (lines : List String) :
    i.feed (line :: lines) = (i.submit line).1.feed lines := rfl

theorem feed_catalogue (i : Interpreter) (lines : List String) :
    (i.feed lines).catalogue = i.catalogue := by
  induction lines generalizing i with
  | nil => rfl
  | cons line lines ih => rw [feed_cons, ih, submit_catalogue]

end Interpreter

end DeskCalculator
