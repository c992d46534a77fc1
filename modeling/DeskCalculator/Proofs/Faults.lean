import DeskCalculator.Proofs.Calls
import DeskCalculator.Instruction

/-!
# DeskCalculator.Proofs.Faults — the faults of what is read, and the faults of what is done

A line is refused for its words, or for what they ask for.  Once a line has been read as an
instruction, no fault is about its words any more: the faults of the operations and the settings
carry the numbers and the text of the instruction.

* `Instruction.perform_faults`: performing an instruction ends in no fault about words.
-/

namespace DeskCalculator

/-- Whether a fault is about the words of a line, and not about what they ask for. -/
def Fault.isAboutWords : Fault → Bool
  | unknownCommand _ | wrongUsage _ | notNumeric _ => true
  | divisionByZero | negativeRoot _ | negativeFactorial _ | fractionalFactorial _
  | outsideUnitInterval _ _ | nonPositiveLogarithm _ | badLogarithmBase _ | unknownAngleUnit _
  | badPrecision _ => false

/-- An outcome that is no fault about words. -/
def WordsTaken {α : Type} (outcome : Except Fault α) : Prop :=
  ∀ fault, outcome = .error fault → fault.isAboutWords = false

namespace WordsTaken

variable {α β : Type}

theorem ok (a : α) : WordsTaken (.ok a) := nofun

theorem error {fault : Fault} (h : fault.isAboutWords = false) :
    WordsTaken (.error fault : Except Fault α) := by
  intro fault' hf
  cases hf
  exact h

theorem ite {p : Prop} [Decidable p] {x y : Except Fault α} (hx : WordsTaken x)
    (hy : WordsTaken y) : WordsTaken (if p then x else y) := by
  split
  · exact hx
  · exact hy

theorem map {outcome : Except Fault α} (h : WordsTaken outcome) (f : α → β) :
    WordsTaken (outcome.map f) := by
  cases outcome with
  | ok a => exact ok (f a)
  | error fault => exact error (h fault rfl)

end WordsTaken

/-! ## Operations and settings -/

theorem onUnitInterval_faults (function : String) (value : Float → Float) (x : Float) :
    WordsTaken (onUnitInterval function value x) := .ite (.error rfl) (.ok _)

theorem onPositive_faults (value : Float → Float) (x : Float) : WordsTaken (onPositive value x) :=
  .ite (.error rfl) (.ok _)

theorem factorial_faults (n : Float) : WordsTaken (factorial n) :=
  .ite (.error rfl) (.ite (.error rfl) (.ok _))

theorem Unary.value_faults (unit : AngleUnit) (f : Unary) (x : Float) :
    WordsTaken (f.value unit x) := by
  cases f with
  | squareRoot => exact .ite (.error rfl) (.ok _)
  | factorial => exact factorial_faults x
  | arcsine | arccosine =>
    unfold value
    exact onUnitInterval_faults _ _ x
  | commonLog | naturalLog => exact onPositive_faults _ x
  | cubeRoot | sine | cosine | tangent | arctangent => exact .ok _

theorem Binary.value_faults (f : Binary) (a b : Float) : WordsTaken (f.value a b) := by
  cases f with
  | divide => exact .ite (.error rfl) (.ok _)
  | logarithm => exact .ite (.error rfl) (onPositive_faults _ b)
  | add | subtract | multiply | modulus | power => exact .ok _

theorem Computation.result_faults (settings : Settings) (x : Computation) :
    WordsTaken (x.result settings) := by
  cases x with
  | unary f x => exact (f.value_faults _ x).map _
  | binary f a b => exact (f.value_faults a b).map _

theorem AngleUnit.ofName_faults (text : String) : WordsTaken (AngleUnit.ofName text) :=
  .ite (.ok _) (.ite (.ok _) (.error rfl))

theorem Settings.checkPrecision_faults (n : Int) : WordsTaken (Settings.checkPrecision n) :=
  .ite (.ok _) (.error rfl)

/-! ## Instructions -/

/-- **Performing an instruction ends in no fault about words.** -/
theorem Instruction.perform_faults (help : String) (i : Instruction) (c : Calculator) :
    WordsTaken (i.perform help c).2 := by
  cases i with
  | compute x =>
    have h : WordsTaken (c.compute x).2 := by
      rw [c.compute_snd]
      exact x.result_faults _
    exact h.map _
  | chain op b =>
    have h : WordsTaken (c.chain op b).2 := by
      unfold Calculator.chain
      rw [c.compute_snd]
      exact Computation.result_faults _ _
    exact h.map _
  | setAngleUnit text =>
    have h : WordsTaken (c.setAngleUnit text).2 := by
      rw [c.setAngleUnit_snd]
      exact AngleUnit.ofName_faults text
    exact h.map _
  | setPrecision n =>
    have h : WordsTaken (c.setPrecision n).2 := by
      rw [c.setPrecision_snd]
      exact Settings.checkPrecision_faults n
    exact h.map _
  | memory _ | showLast | showHistory | showMemoryLog | showSettings | showConstant _
  | clearHistory | help | exit => exact .ok _

end DeskCalculator
