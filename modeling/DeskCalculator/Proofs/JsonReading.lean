import DeskCalculator.Json.Fields
import DeskCalculator.Proofs.Conversion
import DeskCalculator.Proofs.DigitCount
import DeskCalculator.Proofs.JsonNumbers

/-!
# DeskCalculator.Proofs.JsonReading — what the reader makes of the numerals that are written

The reader keeps all digits of a numeral that fit its significand, and scales them by a power of
ten.  The seventeen digits that are written do fit.  Where both the digits and the power of ten are
exact, the numeral is read as the number nearest to it.

* `toFloat?_of_short`: short numerals are read as they are meant.
* `json_fits`: the reader has room for what is written.
-/

namespace DeskCalculator

open Binary64

namespace Numeral.Magnitude

/-- The digits that are written, as a whole number. -/
def digits : Magnitude → Nat
  | .infinity => 0
  | .decimal whole fraction _ => digitsValue (whole ++ fraction.getD [])

/-- The power of ten of the last digit. -/
def scale : Magnitude → Int
  | .infinity => 0
  | .decimal _ fraction exponent => exponent.elim 0 Exponent.value - (fraction.getD []).length

theorem toRat_eq (mag : Magnitude) : mag.toRat = mag.digits * 10 ^ mag.scale := by
  cases mag with
  | infinity => simp [toRat, digits]
  | decimal whole fraction exponent => rfl

/-- Digits and exponents for which the reader has room. -/
def Fits : Magnitude → Prop
  | .infinity => False
  | .decimal whole fraction exponent =>
    (decimal whole fraction exponent).digits < 2 ^ 64 ∧
      (decimal whole fraction exponent).scale.natAbs < 2 ^ 31 ∧
      ∀ e ∈ exponent, e.value.natAbs < 2 ^ 31

/-- Digits and a power of ten that are both exact numbers. -/
def Short (mag : Magnitude) : Prop := mag.digits < 2 ^ 53 ∧ mag.scale.natAbs ≤ 22

instance (mag : Magnitude) : Decidable mag.Short := inferInstanceAs (Decidable (_ ∧ _))

end Numeral.Magnitude

namespace Json

open Numeral (Magnitude Exponent)

/-! ## Significands -/

namespace Significand

theorem append_digit (n : Nat) (c : Char) (cs : List Char) :
    10 ^ (c :: cs).length * n + digitsValue (c :: cs) =
      10 ^ cs.length * (10 * n + digitsValue [c]) + digitsValue cs := by
  have hcons : digitsValue (c :: cs) = 10 ^ cs.length * digitsValue [c] + digitsValue cs :=
    digitsValue_append [c] cs
  rw [hcons, List.length_cons, pow_succ]
  ring

theorem push?_of_lt {s : Significand} {c : Char} {cs : List Char}
    (h : 10 ^ cs.length * (10 * s.digits + digitsValue [c]) + digitsValue cs < 2 ^ 64) :
    s.push? c = some (10 * s.digits + digitsValue [c]) := by
  have hten : 0 < 10 ^ cs.length := by positivity
  have hle := Nat.le_mul_of_pos_left (10 * s.digits + digitsValue [c]) hten
  exact if_pos ((hle.trans (Nat.le_add_right _ _)).trans_lt h)

theorem foldl_pushWhole {n : Nat} {cs : List Char}
    (h : 10 ^ cs.length * n + digitsValue cs < 2 ^ 64) :
    cs.foldl pushWhole ⟨n, 0, false⟩ = ⟨10 ^ cs.length * n + digitsValue cs, 0, false⟩ := by
  induction cs generalizing n with
  | nil => simp [digitsValue]
  | cons c cs ih =>
    rw [append_digit] at h ⊢
    have hpush : push? ⟨n, 0, false⟩ c = some (10 * n + digitsValue [c]) := push?_of_lt h
    rw [List.foldl_cons, ← ih h]
    simp [pushWhole, hpush]

theorem foldl_pushFraction {n : Nat} {e : Int} {cs : List Char}
    (h : 10 ^ cs.length * n + digitsValue cs < 2 ^ 64) :
    cs.foldl pushFraction ⟨n, e, false⟩ =
      ⟨10 ^ cs.length * n + digitsValue cs, e - cs.length, false⟩ := by
  induction cs generalizing n e with
  | nil => simp [digitsValue]
  | cons c cs ih =>
    rw [append_digit] at h ⊢
    have hpush : push? ⟨n, e, false⟩ c = some (10 * n + digitsValue [c]) := push?_of_lt h
    have hexponent : e - (c :: cs).length = e - 1 - cs.length := by
      rw [List.length_cons]
      omega
    rw [List.foldl_cons, hexponent, ← ih h]
    simp [pushFraction, hpush]

/-- Digits that fit the significand are all kept. -/
theorem ofDigits_eq {whole fraction : List Char} (h : digitsValue (whole ++ fraction) < 2 ^ 64) :
    ofDigits whole fraction = ⟨digitsValue (whole ++ fraction), -fraction.length, false⟩ := by
  rw [digitsValue_append] at h ⊢
  have hten : 0 < 10 ^ fraction.length := by positivity
  have hle := Nat.le_mul_of_pos_left (digitsValue whole) hten
  have hwhole : 10 ^ whole.length * 0 + digitsValue whole < 2 ^ 64 := by omega
  show fraction.foldl pushFraction (whole.foldl pushWhole ⟨0, 0, false⟩) = _
  rw [foldl_pushWhole hwhole, mul_zero, zero_add, foldl_pushFraction h, zero_sub]

end Significand

/-! ## Numerals -/

theorem clampExponent_eq {e : Int} (h : e.natAbs < 2 ^ 31) : clampExponent e = e := by
  unfold clampExponent
  rw [Nat.pow_eq]
  omega

/-- A number with a sign put before it. -/
def withSign (s : Sign) (x : Float) : Float :=
  match s with
  | .positive => x
  | .negative => -x

theorem toFloat?_signed (mag : Magnitude) (s : Sign) :
    toFloat? ⟨Decimal.numberSign s, mag⟩ = (toFloat? ⟨none, mag⟩).map (withSign s) := by
  cases mag with
  | infinity => rfl
  | decimal whole fraction exponent =>
    unfold toFloat?
    dsimp only
    cases magnitude? whole (fraction.getD []) exponent <;> cases s <;> rfl

/-- What is left of reading where the reader has room. -/
theorem toFloat?_of_fits {mag : Magnitude} (h : mag.Fits) :
    toFloat? ⟨none, mag⟩ = scaleByTen 3 mag.digits.toUInt64.toFloat mag.scale := by
  cases mag with
  | infinity => cases h
  | decimal whole fraction exponent =>
    obtain ⟨hdigits, hscale, hexponent⟩ := h
    have hmagnitude : magnitude? whole (fraction.getD []) exponent =
        scaleByTen 3 (digitsValue (whole ++ fraction.getD [])).toUInt64.toFloat
          (exponent.elim 0 Exponent.value - (fraction.getD []).length) := by
      unfold magnitude?
      rw [Significand.ofDigits_eq hdigits]
      cases exponent with
      | none => rw [Option.elim_none, zero_sub]
      | some e =>
        have hscale : (e.value - (fraction.getD []).length).natAbs < 2 ^ 31 := hscale
        have he : ¬ Nat.pow 2 31 ≤ e.value.natAbs := Nat.not_le.mpr (hexponent e rfl)
        have hsum : -((fraction.getD []).length : Int) + e.value =
            e.value - (fraction.getD []).length := by omega
        dsimp only
        rw [if_neg he, hsum, clampExponent_eq hscale]
        rfl
    unfold toFloat?
    dsimp only
    rw [hmagnitude]
    exact bind_pure _

/-! ## Short numerals -/

theorem tableTen_eq : ∀ k : Fin 23, tableTen k = Float.exactlyRepresentablePowersOfTen[k] := by
  decide +kernel

/-- Where the digits and the power of ten are exact, only the last rounding is left. -/
theorem scaleByTen_of_short {n : Nat} {e : Int} (hn : 0 < n) (hshort : n < 2 ^ 53)
    (he : e.natAbs ≤ 22) (steps : Nat) :
    scaleByTen steps n.toUInt64.toFloat e = some (Numeral.scientific n e) := by
  have hrange := inRange_of_short hn hshort he
  obtain ⟨m, q, hp, hrounds⟩ := exists_rounds hrange
  have hindex : e.natAbs < 23 := Nat.lt_succ_of_le he
  have hfast := Numeral.ofScientific_fast hn hp.shaped hrounds hshort hindex
  rw [← Numeral.scientific_eq hn hp.shaped hrounds] at hfast
  have htable : tableTen e.natAbs = Float.exactlyRepresentablePowersOfTen[e.natAbs] :=
    tableTen_eq ⟨e.natAbs, hindex⟩
  rw [← htable] at hfast
  split at hfast
  · next hneg => rw [scaleByTen_down steps (by omega) hneg, hfast]
  · next hneg =>
    have hfinite := (denotes_ofParts hp).isInf
    rw [← Numeral.scientific_eq hn hp.shaped hrounds, ← hfast] at hfinite
    rw [scaleByTen_up steps (by omega) (by omega) hfinite, hfast]

/-- **Short numerals are read as they are meant.** -/
theorem toFloat?_of_short {mag : Magnitude} (hfits : mag.Fits) (hshort : mag.Short)
    (hpos : 0 < mag.digits) : toFloat? ⟨none, mag⟩ = some mag.value := by
  rw [toFloat?_of_fits hfits, scaleByTen_of_short hpos hshort.1 hshort.2]
  cases mag with
  | infinity => cases hfits
  | decimal whole fraction exponent => rfl

end Json

/-! ## The numerals that are written -/

namespace Decimal

open Numeral (Magnitude)

variable {d : Decimal} (h : d.digits < 10 ^ 17)
include h

/-- The zero behind the point does not make the digits too many. -/
theorem json_digits_lt : (json.magnitude d).digits < 10 ^ 17 := by
  have hchars : digitsValue d.chars = d.digits := digitsValue_toDigits _
  unfold Style.magnitude
  split
  · next hplace =>
    have hpoint : d.point ≤ 16 := (of_decide_eq_true hplace).2
    unfold placed
    split
    · have hzeros : digitsValue ('0' :: (List.replicate (-d.point).toNat '0' ++ d.chars)) =
          digitsValue d.chars := digitsValue_zeros_append ((-d.point).toNat + 1) d.chars
      show digitsValue ('0' :: (List.replicate (-d.point).toNat '0' ++ d.chars)) < 10 ^ 17
      rwa [hzeros, hchars]
    · dsimp only
      split
      · next hlength =>
        obtain ⟨k, hk⟩ := Nat.exists_eq_add_of_le hlength
        have hzero : digitsValue ['0'] = 0 := rfl
        show digitsValue
          (d.chars ++ List.replicate (d.point.toNat - d.chars.length) '0' ++ ['0']) < 10 ^ 17
        rw [digitsValue_append, digitsValue_append_zeros, hchars, hzero, add_zero, hk,
          Nat.add_sub_cancel_left]
        have hlt : 10 ^ k * d.digits < 10 ^ k * 10 ^ d.chars.length :=
          Nat.mul_lt_mul_of_pos_left d.digits_lt_length (by positivity)
        calc 10 ^ ['0'].length * (10 ^ k * d.digits) < 10 ^ 1 * (10 ^ k * 10 ^ d.chars.length) :=
              Nat.mul_lt_mul_of_pos_left hlt (by positivity)
          _ = 10 ^ (1 + (k + d.chars.length)) := by rw [pow_add, pow_add]
          _ ≤ 10 ^ 17 := Nat.pow_le_pow_right (by norm_num) (by omega)
      · show digitsValue (d.chars.take _ ++ d.chars.drop _) < 10 ^ 17
        rwa [List.take_append_drop, hchars]
  · unfold scaled
    dsimp only
    split
    · next hlength =>
      show digitsValue (d.chars.take 1 ++ []) < 10 ^ 17
      rwa [List.append_nil, List.take_of_length_le hlength, hchars]
    · show digitsValue (d.chars.take 1 ++ d.chars.drop 1) < 10 ^ 17
      rwa [List.take_append_drop, hchars]

omit h in
theorem placed_shape (wholeFraction : Option (List Char)) (digits : List Char) (point : Int) :
    ∃ whole fraction, placed wholeFraction digits point = .decimal whole fraction none := by
  unfold placed
  split
  · exact ⟨_, _, rfl⟩
  · dsimp only
    split
    · exact ⟨_, _, rfl⟩
    · exact ⟨_, _, rfl⟩

/-- The fraction before an exponent is short. -/
theorem json_shape : ∃ whole fraction exponent,
    json.magnitude d = .decimal whole fraction exponent ∧
      ∀ e ∈ exponent, (fraction.getD []).length ≤ 17 := by
  unfold Style.magnitude
  split
  · obtain ⟨whole, fraction, hplaced⟩ := placed_shape json.wholeFraction d.chars d.point
    exact ⟨whole, fraction, none, hplaced, nofun⟩
  · refine ⟨_, _, _, rfl, fun e he => ?_⟩
    have hlength := (d.length_chars_le_iff (by norm_num)).mpr h
    split
    · exact Nat.zero_le _
    · rw [Option.getD_some, List.length_drop]
      omega

/-- The reader has room for what is written. -/
theorem json_fits (hscale : (json.magnitude d).scale.natAbs ≤ 341) : (json.magnitude d).Fits := by
  have hdigits := json_digits_lt h
  obtain ⟨whole, fraction, exponent, hshape, hfraction⟩ := json_shape h
  rw [hshape] at hdigits hscale ⊢
  refine ⟨hdigits.trans (by norm_num), by omega, fun e he => ?_⟩
  obtain rfl : exponent = some e := he
  have hlength := hfraction e rfl
  have hvalue : (Magnitude.decimal whole fraction (some e)).scale =
      e.value - (fraction.getD []).length := rfl
  omega

end Decimal

end DeskCalculator
