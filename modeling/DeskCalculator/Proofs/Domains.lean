import DeskCalculator.Operation.Basic
import DeskCalculator.Proofs.Rounding

/-!
# DeskCalculator.Proofs.Domains — where the operations have no value

Numbers are compared as numbers: the two zeros are equal, and NaN is neither equal to, nor below,
nor above anything.  `Computation.Undefined` lists, for each operation, the operands at which it has
no value and the fault that says so; everywhere else it has one.

* `Computation.value_eq_error`: an operation has a fault exactly where it is listed.
* `Computation.eq_fractionalFactorial_of_undefined`: only the factorial refuses a NaN.
-/

namespace DeskCalculator

namespace Binary64

/-! ## Zero, one and the whole numbers -/

/-- Both zeros are equal to zero, and nothing else is. -/
theorem beq_zero_iff {x : Float} : x == 0 ↔ ∃ s, x = zero s := by
  have hminus : (-0 : Float) = zero .negative := by decide +kernel
  have hnumber (s : Sign) : zero s ≠ Float.nan := by cases s <;> decide +kernel
  rw [Float.beq_iff_ne_nan_and_eq, hminus, zero_literal]
  constructor
  · rintro ⟨-, -, h | ⟨h, -⟩ | ⟨h, -⟩⟩ <;> exact ⟨_, h⟩
  · rintro ⟨s, rfl⟩
    refine ⟨hnumber s, hnumber .positive, ?_⟩
    cases s with
    | positive => exact .inl rfl
    | negative => exact .inr (.inr ⟨rfl, rfl⟩)

theorem beq_one_iff {x : Float} : x == 1 ↔ x = 1 := by
  have hone : (1 : Float) ≠ Float.nan ∧ (1 : Float) ≠ 0 ∧ (1 : Float) ≠ -0 := by decide +kernel
  obtain ⟨hnumber, hzero, hminus⟩ := hone
  rw [Float.beq_iff_ne_nan_and_eq]
  constructor
  · rintro ⟨-, -, h | ⟨-, h⟩ | ⟨-, h⟩⟩
    · exact h
    · exact absurd h hminus
    · exact absurd h hzero
  · rintro rfl
    exact ⟨hnumber, hnumber, .inl rfl⟩

/-- The numbers without a digit behind the point. -/
inductive Whole (x : Float) : Prop
  | zero {s : Sign} (h : parts x = .zero s)
  | finite {s : Sign} {m : Nat} {q : Int} {hm : 0 < m} (h : parts x = .finite s m q hm) (n : Nat)
      (value : (m : ℚ) * 2 ^ q = n)

theorem exists_nat_eq_iff {m : Nat} {q : Int} :
    (∃ n : Nat, (m : ℚ) * 2 ^ q = n) ↔ 0 ≤ q ∨ m % 2 ^ (-q).toNat = 0 := by
  rcases le_or_gt 0 q with hq | hq
  · obtain ⟨k, rfl⟩ := Int.eq_ofNat_of_zero_le hq
    refine iff_of_true ⟨m * 2 ^ k, ?_⟩ (.inl hq)
    push_cast
    rw [zpow_natCast]
  · obtain ⟨k, rfl⟩ : ∃ k : Nat, q = -k := ⟨(-q).toNat, by omega⟩
    have hvalue (n : Nat) : (m : ℚ) * 2 ^ (-(k : Int)) = n ↔ m = n * 2 ^ k := by
      rw [zpow_neg, zpow_natCast, ← div_eq_mul_inv, div_eq_iff (by positivity)]
      exact_mod_cast Iff.rfl
    simp only [hvalue, neg_neg, Int.toNat_natCast, ← Nat.dvd_iff_mod_eq_zero]
    constructor
    · rintro ⟨n, hn⟩
      exact .inr ⟨n, hn.trans (Nat.mul_comm _ _)⟩
    · rintro (h | ⟨n, hn⟩)
      · omega
      · exact ⟨n, hn.trans (Nat.mul_comm _ _)⟩

theorem isWhole_iff {x : Float} : isWhole x ↔ Whole x := by
  unfold isWhole
  cases hx : parts x with
  | zero s => exact iff_of_true rfl (.zero hx)
  | notANumber | infinity s =>
    refine iff_of_false Bool.false_ne_true fun h => ?_
    cases h with
    | zero h => rw [hx] at h; cases h
    | finite h => rw [hx] at h; cases h
  | finite s m q hm =>
    have hwhole : Whole x ↔ ∃ n : Nat, (m : ℚ) * 2 ^ q = n := by
      constructor
      · intro h
        cases h with
        | zero h => rw [hx] at h; cases h
        | finite h n value =>
          rw [hx] at h
          cases h
          exact ⟨n, value⟩
      · rintro ⟨n, value⟩
        exact .finite hx n value
    rw [hwhole, exists_nat_eq_iff]
    simp

end Binary64

open Binary64

theorem map_eq_error {α β : Type} {outcome : Except Fault α} {f : α → β} {fault : Fault} :
    outcome.map f = .error fault ↔ outcome = .error fault := by
  cases outcome with
  | ok a => exact iff_of_false nofun nofun
  | error refusal => exact ⟨fun h => congrArg _ (Except.error.inj h),
      fun h => congrArg _ (Except.error.inj h)⟩

/-- The operand for which an operation has no value, if the fault names it. -/
def Fault.culprit? : Fault → Option Float
  | negativeRoot x | negativeFactorial x | fractionalFactorial x | outsideUnitInterval _ x
  | nonPositiveLogarithm x | badLogarithmBase x => some x
  | divisionByZero | unknownAngleUnit _ | badPrecision _ | unknownCommand _ | wrongUsage _
  | notNumeric _ => none

namespace Computation

/-- The operands at which an operation has no value, and the fault that says so. -/
inductive Undefined : Computation → Fault → Prop
  | divide (a : Float) (s : Sign) : Undefined (.binary .divide a (zero s)) .divisionByZero
  | squareRoot {x : Float} (h : x < 0) : Undefined (.unary .squareRoot x) (.negativeRoot x)
  | negativeFactorial {x : Float} (h : x < 0) :
    Undefined (.unary .factorial x) (.negativeFactorial x)
  | fractionalFactorial {x : Float} (h : ¬ x < 0) (whole : ¬ Whole x) :
    Undefined (.unary .factorial x) (.fractionalFactorial x)
  | arcsine {x : Float} (h : x < -1 ∨ 1 < x) :
    Undefined (.unary .arcsine x) (.outsideUnitInterval "asin" x)
  | arccosine {x : Float} (h : x < -1 ∨ 1 < x) :
    Undefined (.unary .arccosine x) (.outsideUnitInterval "acos" x)
  | commonLog {x : Float} (h : x ≤ 0) : Undefined (.unary .commonLog x) (.nonPositiveLogarithm x)
  | naturalLog {x : Float} (h : x ≤ 0) : Undefined (.unary .naturalLog x) (.nonPositiveLogarithm x)
  | base {a : Float} (h : a ≤ 0 ∨ a = 1) (b : Float) :
    Undefined (.binary .logarithm a b) (.badLogarithmBase a)
  | logarithm {a b : Float} (base : ¬ (a ≤ 0 ∨ a = 1)) (h : b ≤ 0) :
    Undefined (.binary .logarithm a b) (.nonPositiveLogarithm b)

variable {unit : AngleUnit} {x : Float} {fault : Fault}

theorem value_of_undefined {c : Computation} (h : c.Undefined fault) :
    c.value unit = .error fault := by
  cases h with
  | divide a s => exact if_pos (beq_zero_iff.mpr ⟨s, rfl⟩)
  | squareRoot h => exact if_pos h
  | negativeFactorial h => exact if_pos h
  | @fractionalFactorial x h whole =>
    have hwhole : !isWhole x := by simpa using mt isWhole_iff.mp whole
    exact (if_neg h).trans (if_pos hwhole)
  | arcsine h => exact if_pos (by simpa using h)
  | arccosine h => exact if_pos (by simpa using h)
  | commonLog h => exact if_pos h
  | naturalLog h => exact if_pos h
  | base h b => exact if_pos (by simpa [beq_one_iff] using h)
  | logarithm base h => exact (if_neg (by simpa [beq_one_iff] using base)).trans (if_pos h)

/-- An outcome with one guard before it. -/
theorem guard_eq_error {p : Prop} [Decidable p] {refusal : Fault} {value : Float}
    (h : (if p then .error refusal else .ok value) = (.error fault : Except Fault Float)) :
    p ∧ refusal = fault := by
  split at h
  · next hp => exact ⟨hp, Except.error.inj h⟩
  · cases h

theorem guard_eq_ok {p : Prop} [Decidable p] {refusal : Fault} {value result : Float}
    (h : (if p then .error refusal else .ok value) = (.ok result : Except Fault Float)) :
    ¬ p ∧ value = result := by
  split at h
  · cases h
  · next hp => exact ⟨hp, Except.ok.inj h⟩

theorem undefined_of_unary {f : Unary} (h : f.value unit x = .error fault) :
    (unary f x).Undefined fault := by
  cases f with
  | squareRoot =>
    obtain ⟨hx, rfl⟩ := guard_eq_error h
    exact .squareRoot hx
  | factorial =>
    have hguards : DeskCalculator.factorial x = .error fault := h
    unfold DeskCalculator.factorial at hguards
    split at hguards
    · next hx =>
      cases hguards
      exact .negativeFactorial hx
    · next hx =>
      obtain ⟨hwhole, rfl⟩ := guard_eq_error hguards
      exact .fractionalFactorial hx fun hw => by simp [isWhole_iff.mpr hw] at hwhole
  | arcsine =>
    obtain ⟨hx, rfl⟩ := guard_eq_error h
    exact .arcsine (by simpa using hx)
  | arccosine =>
    obtain ⟨hx, rfl⟩ := guard_eq_error h
    exact .arccosine (by simpa using hx)
  | commonLog =>
    obtain ⟨hx, rfl⟩ := guard_eq_error h
    exact .commonLog hx
  | naturalLog =>
    obtain ⟨hx, rfl⟩ := guard_eq_error h
    exact .naturalLog hx
  | cubeRoot | sine | cosine | tangent | arctangent => cases h

theorem undefined_of_binary {f : Binary} {a b : Float} (h : f.value a b = .error fault) :
    (binary f a b).Undefined fault := by
  cases f with
  | divide =>
    obtain ⟨hb, rfl⟩ := guard_eq_error h
    obtain ⟨s, rfl⟩ := beq_zero_iff.mp hb
    exact .divide a s
  | logarithm =>
    simp only [Binary.value] at h
    split at h
    · next ha =>
      cases h
      exact .base (by simpa [beq_one_iff] using ha) b
    · next ha =>
      obtain ⟨hb, rfl⟩ := guard_eq_error h
      exact .logarithm (by simpa [beq_one_iff] using ha) hb
  | add | subtract | multiply | modulus | power => cases h

/-- **An operation has no value exactly at the operands that are listed.** -/
theorem value_eq_error {c : Computation} : c.value unit = .error fault ↔ c.Undefined fault := by
  refine ⟨fun h => ?_, value_of_undefined⟩
  cases c with
  | unary f x => exact undefined_of_unary h
  | binary f a b => exact undefined_of_binary h

theorem result_eq_error {c : Computation} {settings : Settings} :
    c.result settings = .error fault ↔ c.Undefined fault := by
  rw [result, map_eq_error, value_eq_error]

/-- A NaN passes every guard but that of the factorial. -/
theorem eq_fractionalFactorial_of_undefined {c : Computation} (h : c.Undefined fault)
    (hnan : fault.culprit? = some notANumber) : fault = .fractionalFactorial notANumber := by
  have hcompare : ¬ notANumber < 0 ∧ ¬ notANumber < -1 ∧ ¬ 1 < notANumber ∧ ¬ notANumber ≤ 0 ∧
      notANumber ≠ 1 := by
    decide +kernel
  obtain ⟨hzero, hminus, hone, hle, hne⟩ := hcompare
  cases h with
  | divide a s => cases hnan
  | fractionalFactorial h whole =>
    obtain rfl := Option.some.inj hnan
    rfl
  | squareRoot h | negativeFactorial h =>
    obtain rfl := Option.some.inj hnan
    exact absurd h hzero
  | arcsine h | arccosine h =>
    obtain rfl := Option.some.inj hnan
    exact absurd h (not_or.mpr ⟨hminus, hone⟩)
  | commonLog h | naturalLog h =>
    obtain rfl := Option.some.inj hnan
    exact absurd h hle
  | base h b =>
    obtain rfl := Option.some.inj hnan
    exact absurd h (not_or.mpr ⟨hle, hne⟩)
  | logarithm base h =>
    obtain rfl := Option.some.inj hnan
    exact absurd h hle

end Computation

end DeskCalculator
