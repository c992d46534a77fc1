import DeskCalculator.Proofs.Lines

/-!
# DeskCalculator.Proofs.Atomicity — a fault leaves everything as it was

A step is atomic when its fault, if it ends in one, leaves the state it began with.  The argument
goes up through the layers: computations and settings, instructions, commands, lines.  Nothing is
asked of the catalogue: a command may take more or fewer arguments than its action reads.
-/

namespace DeskCalculator

/-- A step from the state `s` that ends in a fault ends in `s`. -/
def Atomic {σ α : Type} (s : σ) (step : σ × Except Fault α) : Prop :=
  ∀ fault, step.2 = .error fault → step.1 = s

namespace Atomic

variable {σ α : Type} {s : σ}

/-- A step that succeeds is atomic, whatever it does. -/
theorem of_ok {step : σ × Except Fault α} {a : α} (h : step.2 = .ok a) : Atomic s step := by
  intro fault hf
  rw [h] at hf
  cases hf

/-- A step that ends where it began is atomic, whatever its outcome. -/
theorem of_eq {step : σ × Except Fault α} (h : step.1 = s) : Atomic s step := fun _ _ => h

end Atomic

/-! ## The calculator -/

namespace Calculator

theorem compute_atomic (c : Calculator) (x : Computation) : Atomic c (c.compute x) := by
  cases h : x.result c.settings with
  | ok result => rw [compute_of_ok h]; exact .of_ok rfl
  | error fault => rw [compute_of_error h]; exact .of_eq rfl

theorem chain_atomic (c : Calculator) (op : Chain) (b : Float) : Atomic c (c.chain op b) :=
  compute_atomic c _

theorem setAngleUnit_atomic (c : Calculator) (text : String) : Atomic c (c.setAngleUnit text) := by
  unfold setAngleUnit
  cases AngleUnit.ofName text with
  | ok unit => exact .of_ok rfl
  | error fault => exact .of_eq rfl

theorem setPrecision_atomic (c : Calculator) (n : Int) : Atomic c (c.setPrecision n) := by
  unfold setPrecision
  cases Settings.checkPrecision n with
  | ok precision => exact .of_ok rfl
  | error fault => exact .of_eq rfl

end Calculator

/-! ## Instructions, commands and lines -/

namespace Instruction

theorem reply_atomic {α : Type} {c : Calculator} {step : Calculator × Except Fault α}
    (words : α → String) (h : Atomic c step) : Atomic c (reply words step) := by
  intro fault hf
  obtain ⟨c', outcome⟩ := step
  cases outcome with
  | ok a => cases hf
  | error fault' => exact h fault' rfl

theorem perform_atomic (help : String) (i : Instruction) (c : Calculator) :
    Atomic c (i.perform help c) := by
  cases i with
  | compute x => exact reply_atomic _ (c.compute_atomic x)
  | chain op b => exact reply_atomic _ (c.chain_atomic op b)
  | setAngleUnit text => exact reply_atomic _ (c.setAngleUnit_atomic text)
  | setPrecision n => exact reply_atomic _ (c.setPrecision_atomic n)
  -- a use of the memory and an emptying of the history cannot be refused
  | memory request => exact .of_ok rfl
  | clearHistory => exact .of_ok rfl
  | showLast => exact .of_eq rfl
  | showHistory => exact .of_eq rfl
  | showMemoryLog => exact .of_eq rfl
  | showSettings => exact .of_eq rfl
  | showConstant k => exact .of_eq rfl
  | help => exact .of_eq rfl
  | exit => exact .of_eq rfl

end Instruction

theorem Command.invoke_atomic (command : Command) (help : String) (a : Arguments)
    (c : Calculator) : Atomic c (command.invoke help a c) := by
  rcases command.invoke_cases a with ⟨fault, -, hinvoke⟩ | ⟨i, -, -, -, hinvoke⟩
  · rw [hinvoke]
    exact .of_eq rfl
  · rw [hinvoke]
    exact i.perform_atomic help c

namespace Interpreter

/-- A fault of a command is passed on with the interpreter as it was. -/
theorem answer_atomic {i : Interpreter} {step : Calculator × Except Fault Reply}
    (h : Atomic i.calculator step) : Atomic i (i.answer step) := by
  intro fault hf
  obtain ⟨c, outcome⟩ := step
  cases outcome with
  | ok reply => cases hf
  | error fault' =>
    have hc : c = i.calculator := h fault' rfl
    rw [hc]
    rfl

theorem submit_atomic (i : Interpreter) (line : String) : Atomic i (i.submit line) := by
  rcases i.submit_cases line with ⟨outcome, -, hsubmit⟩ | ⟨command, words, -, hsubmit⟩
  · rw [hsubmit]
    exact .of_eq rfl
  · rw [hsubmit]
    exact answer_atomic (command.invoke_atomic _ _ _)

end Interpreter

/-- **A fault changes nothing**: not the calculator (its last result, its history, its memory with
the log, its settings, and the readings taken from its clock), nor whether the interpreter runs.  It
is so for a line, whatever the catalogue, for a command that is invoked with any words, and for each
function of the calculator that can fail. -/
theorem faults_change_nothing :
    (∀ (i : Interpreter) (line : String), Atomic i (i.submit line)) ∧
    (∀ (command : Command) (help : String) (a : Arguments) (c : Calculator),
      Atomic c (command.invoke help a c)) ∧
    (∀ (c : Calculator) (x : Computation), Atomic c (c.compute x)) ∧
    (∀ (c : Calculator) (op : Chain) (b : Float), Atomic c (c.chain op b)) ∧
    (∀ (c : Calculator) (text : String), Atomic c (c.setAngleUnit text)) ∧
    ∀ (c : Calculator) (n : Int), Atomic c (c.setPrecision n) :=
  ⟨Interpreter.submit_atomic, Command.invoke_atomic, Calculator.compute_atomic,
    Calculator.chain_atomic, Calculator.setAngleUnit_atomic, Calculator.setPrecision_atomic⟩

/-- An interpreter that has carried out `add 1 2`, and that knows the division under a second name,
with one argument too few. -/
def shortDivision (clock : Clock) : Interpreter :=
  let half : Command := ⟨"half", 1, .basic, "half <a>", "Divide a number", .binary .divide⟩
  let i : Interpreter :=
    { calculator := { clock }
      catalogue := Catalogue.standard.register half
      strictness := .strict
      running := true }
  (i.submit "add 1 2").1

/-- The second argument is not given; it is read as the empty word, after the first was read. -/
theorem shortDivision_changes_nothing :
    ((shortDivision (.still ⟨0, 0⟩)).submit "half 8").2 = .error (.notNumeric "") ∧
      ((shortDivision (.still ⟨0, 0⟩)).submit "half 8").1 = shortDivision (.still ⟨0, 0⟩) :=
  ⟨rfl, faults_change_nothing.1 _ "half 8" _ rfl⟩

end DeskCalculator
