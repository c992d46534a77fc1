import DeskCalculator.Operation.Basic
import DeskCalculator.Proofs.JsonNumbers

/-!
# DeskCalculator.Proofs.Infinities — where what is not finite comes out again

Sums, differences and products with an operand that is not finite are not finite themselves, and no
more are logarithms of such numbers.  A quotient, a remainder and a power may well be finite.

* `Computation.losesInfinities_of_result`: the operations in which an operand that is not finite can
  be lost.
-/

namespace DeskCalculator

open Binary64
open Float.Model.UnpackedFloat (add sub mul div)

namespace Binary64

/-- The operations that have no finite result unless both operands are finite. -/
def KeepsInfinities (op : Parts → Parts → Parts) : Prop :=
  ∀ u v, (u.isFinite && v.isFinite) = false → (op u v).isFinite = false

theorem add_keepsInfinities : KeepsInfinities (add .binary64) := by
  intro u v h
  cases u with
  | notANumber => rfl
  | infinity s => cases v with
    | infinity t => cases s <;> cases t <;> rfl
    | notANumber | zero t | finite t n r hn => rfl
  | zero s | finite s m q hm => cases v with
    | notANumber | infinity t => rfl
    | zero t | finite t n r hn => cases h

theorem sub_keepsInfinities : KeepsInfinities (sub .binary64) := by
  intro u v h
  cases u with
  | notANumber => rfl
  | infinity s => cases v with
    | infinity t => cases s <;> cases t <;> rfl
    | notANumber | zero t | finite t n r hn => rfl
  | zero s | finite s m q hm => cases v with
    | notANumber | infinity t => rfl
    | zero t | finite t n r hn => cases h

theorem mul_keepsInfinities : KeepsInfinities (mul .binary64) := by
  intro u v h
  cases u with
  | notANumber => rfl
  | infinity s => cases v with
    | notANumber | infinity t | zero t | finite t n r hn => rfl
  | zero s | finite s m q hm => cases v with
    | notANumber | infinity t => rfl
    | zero t | finite t n r hn => cases h

/-- A quotient is not finite when its numerator is not. -/
theorem div_isFinite {u : Parts} (h : u.isFinite = false) (v : Parts) :
    (div .binary64 u v).isFinite = false := by
  cases u with
  | notANumber => rfl
  | infinity s => cases v with
    | notANumber | infinity t | zero t | finite t n r hn => rfl
  | zero s | finite s m q hm => cases h

variable {x y : Float}

theorem isFinite_ofParts {u : Parts} (h : u.isFinite = false) : (ofParts u).isFinite = false := by
  cases u with
  | notANumber => rw [isFinite_eq, parts_ofParts .notANumber]; rfl
  | infinity s => rw [isFinite_eq, parts_ofParts (.infinity s)]; rfl
  | zero s | finite s m q hm => cases h

theorem KeepsInfinities.isFinite {op : Parts → Parts → Parts} (hop : KeepsInfinities op)
    (h : (ofParts (op (parts x) (parts y))).isFinite = true) :
    x.isFinite = true ∧ y.isFinite = true := by
  cases hxy : (parts x).isFinite && (parts y).isFinite with
  | true => exact Bool.and_eq_true_iff.mp hxy
  | false => rw [isFinite_ofParts (hop _ _ hxy)] at h; cases h

theorem isFinite_of_add (h : (x + y).isFinite = true) : x.isFinite = true ∧ y.isFinite = true :=
  add_keepsInfinities.isFinite h

theorem isFinite_of_sub (h : (x - y).isFinite = true) : x.isFinite = true ∧ y.isFinite = true :=
  sub_keepsInfinities.isFinite h

theorem isFinite_of_mul (h : (x * y).isFinite = true) : x.isFinite = true ∧ y.isFinite = true :=
  mul_keepsInfinities.isFinite h

theorem isFinite_of_div (h : (x / y).isFinite = true) : x.isFinite = true := by
  cases hx : x.isFinite with
  | true => rfl
  | false =>
    have hdiv : (x / y).isFinite = false := isFinite_ofParts (div_isFinite hx (parts y))
    rw [hdiv] at h
    cases h

/-- What is not finite is not rounded. -/
theorem roundTo_of_not_finite {precision : UInt32} (hx : x.isFinite = false) :
    roundTo x precision = x := by
  simp [roundTo, hx]

theorem isFinite_of_roundTo {precision : UInt32} (h : (roundTo x precision).isFinite = true) :
    x.isFinite = true := by
  cases hx : x.isFinite with
  | true => rfl
  | false =>
    rw [roundTo_of_not_finite hx, hx] at h
    cases h

theorem eq_of_not_finite (h : x.isFinite = false) :
    x = notANumber ∨ x = infinity .positive ∨ x = infinity .negative := by
  rw [isFinite_eq] at h
  rw [← ofParts_parts x]
  cases hx : parts x with
  | notANumber => exact .inl rfl
  | infinity s => cases s with
    | positive => exact .inr (.inl rfl)
    | negative => exact .inr (.inr rfl)
  | zero s | finite s m q hm => rw [hx] at h; cases h

end Binary64

/-- A number that has a finite logarithm is finite. -/
theorem isFinite_of_naturalLog {x : Float} (hpos : ¬ x ≤ 0)
    (h : (Elementary.naturalLog x).isFinite = true) : x.isFinite = true := by
  by_contra hx
  rcases eq_of_not_finite (Bool.eq_false_iff.mpr hx) with rfl | rfl | rfl
  · exact absurd h (by decide +kernel)
  · exact absurd h (by decide +kernel)
  · exact hpos (by decide +kernel)

/-- The operations that can have a finite result from a second operand that is not finite. -/
def Binary.losesInfinities : Binary → Bool
  | .divide | .modulus | .power => true
  | .add | .subtract | .multiply | .logarithm => false

theorem Binary.isFinite_of_value {f : Binary} {a b value : Float} (hf : f.losesInfinities = false)
    (h : f.value a b = .ok value) (hvalue : value.isFinite = true) : b.isFinite = true := by
  cases f with
  | divide | modulus | power => cases hf
  | add => cases h; exact (isFinite_of_add hvalue).2
  | subtract => cases h; exact (isFinite_of_sub hvalue).2
  | multiply => cases h; exact (isFinite_of_mul hvalue).2
  | logarithm =>
    simp only [Binary.value, onPositive] at h
    split at h
    · cases h
    · split at h
      · cases h
      · next hpos =>
        cases h
        exact isFinite_of_naturalLog hpos (isFinite_of_div hvalue)

/-- **Where an infinity can be lost.**  Only a quotient, a remainder or a power can be finite when
the second operand is not. -/
theorem Computation.losesInfinities_of_result {f : Binary} {a b result : Float} {s : Settings}
    (h : (binary f a b).result s = .ok result) (hresult : result.isFinite = true)
    (hb : b.isFinite = false) : f.losesInfinities = true := by
  by_contra hf
  simp only [Computation.result, Computation.value] at h
  cases hvalue : f.value a b with
  | error fault => rw [hvalue] at h; cases h
  | ok value =>
    rw [hvalue] at h
    cases h
    have hfinite : value.isFinite = true := by
      split at hresult
      · exact isFinite_of_roundTo hresult
      · exact hresult
    rw [Binary.isFinite_of_value (Bool.eq_false_iff.mpr hf) hvalue hfinite] at hb
    cases hb

end DeskCalculator
