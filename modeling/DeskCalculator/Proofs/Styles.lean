import DeskCalculator.Decimal.Style
import DeskCalculator.Proofs.Numerals
import DeskCalculator.Proofs.Scientific
import DeskCalculator.Proofs.ShortestDigits

/-!
# DeskCalculator.Proofs.Styles — what is written in a style is a numeral of the same number

Digits may be put in place or scaled by an exponent, and zeros may stand before or behind them.  The
rational number that a numeral says, `Magnitude.toRat`, is the same for all of these, so that the
numeral of a finite number has that number as its value, in every style that adds nothing but zeros.
-/

namespace DeskCalculator

open Binary64

/-! ## The rational number that a numeral says -/

theorem digitsValue_append (xs ys : List Char) :
    digitsValue (xs ++ ys) = 10 ^ ys.length * digitsValue xs + digitsValue ys := by
  simp only [digitsValue]
  rw [Nat.ofDigitChars_append, Nat.ofDigitChars_eq_ofDigitChars_zero]

@[simp] theorem digitsValue_zeros (n : Nat) : digitsValue (List.replicate n '0') = 0 := by
  simp [digitsValue, Nat.ofDigitChars_replicate_zero]

theorem digitsValue_append_zeros (digits : List Char) (n : Nat) :
    digitsValue (digits ++ List.replicate n '0') = 10 ^ n * digitsValue digits := by
  simp [digitsValue_append]

theorem digitsValue_zeros_append (n : Nat) (digits : List Char) :
    digitsValue (List.replicate n '0' ++ digits) = digitsValue digits := by
  simp [digitsValue_append]

@[simp] theorem digitsValue_toDigits (n : Nat) : digitsValue (Nat.toDigits 10 n) = n :=
  Nat.ofDigitChars_ten_toDigits

namespace Numeral

/-- The rational number that is written behind the sign, 0 for `Infinity`. -/
def Magnitude.toRat : Magnitude → ℚ
  | .infinity => 0
  | .decimal whole fraction exponent =>
    digitsValue (whole ++ fraction.getD []) *
      10 ^ (exponent.elim 0 Exponent.value - (fraction.getD []).length)

/-- The value of a magnitude is the number that its rational is rounded to. -/
theorem Magnitude.value_eq {mag : Magnitude} {m : Nat} {q : Int} (hp : Proper m q)
    (h : Rounds m q mag.toRat) : mag.value = ofParts (.finite .positive m q hp.pos) := by
  have hpos : 0 < mag.toRat := (two_zpow_pos _).trans (h.half_least_lt hp.shaped)
  cases mag with
  | infinity => exact absurd hpos (lt_irrefl 0)
  | decimal whole fraction exponent =>
    refine scientific_eq (Nat.pos_of_ne_zero fun hzero => ?_) hp.shaped h
    simp [toRat, hzero] at hpos

end Numeral

namespace Decimal

open Numeral (Magnitude Exponent AllDigits)

variable {digits : List Char} {point : Int}

/-- A fraction that is added to a whole number is made of zeros. -/
def Zeros (fraction : Option (List Char)) : Prop :=
  ∀ zeros ∈ fraction, ∃ n, zeros = List.replicate n '0'

theorem Zeros.getD {fraction : Option (List Char)} (h : Zeros fraction) :
    ∃ n, fraction.getD [] = List.replicate n '0' := by
  cases fraction with
  | none => exact ⟨0, rfl⟩
  | some zeros => exact h zeros rfl

theorem allDigits_zeros (n : Nat) : AllDigits (List.replicate n '0') := by
  intro c hc
  obtain rfl := List.eq_of_mem_replicate hc
  rfl

theorem allDigits_append {xs ys : List Char} (hxs : AllDigits xs) (hys : AllDigits ys) :
    AllDigits (xs ++ ys) := by
  intro c hc
  rcases List.mem_append.mp hc with hc | hc
  · exact hxs c hc
  · exact hys c hc

/-- Digits in place say what the digits and the position of the point say. -/
theorem placed_toRat {wholeFraction : Option (List Char)} (h : Zeros wholeFraction) :
    (placed wholeFraction digits point).toRat =
      digitsValue digits * 10 ^ (point - digits.length) := by
  unfold placed
  split
  · next hpoint =>
    have hvalue : digitsValue ('0' :: (List.replicate (-point).toNat '0' ++ digits)) =
        digitsValue digits := digitsValue_zeros_append ((-point).toNat + 1) digits
    have hexponent : (0 : Int) - (List.replicate (-point).toNat '0' ++ digits).length =
        point - digits.length := by
      rw [List.length_append, List.length_replicate]
      omega
    simp [Magnitude.toRat, hvalue, ← hexponent]
  · next hpoint =>
    obtain ⟨n, rfl⟩ : ∃ n : Nat, point = n := ⟨point.toNat, by omega⟩
    simp only [Int.toNat_natCast]
    split
    · next hlength =>
      obtain ⟨j, hj⟩ := h.getD
      obtain ⟨k, rfl⟩ := Nat.exists_eq_add_of_le hlength
      have hexponent : (10 : ℚ) ^ ((digits.length + k : Nat) - digits.length : Int) = 10 ^ k := by
        rw [← zpow_natCast]
        congr 1
        omega
      have hj' : (10 : ℚ) ^ (-(j : Int)) * 10 ^ j = 1 := by
        rw [zpow_neg, zpow_natCast]
        exact inv_mul_cancel₀ (by positivity)
      simp only [Magnitude.toRat, hj, Nat.add_sub_cancel_left, digitsValue_append_zeros, hexponent,
        Option.elim_none, List.length_replicate, zero_sub]
      push_cast
      calc (10 ^ j * (10 ^ k * digitsValue digits) * 10 ^ (-(j : Int)) : ℚ)
          = digitsValue digits * 10 ^ k * (10 ^ (-(j : Int)) * 10 ^ j) := by ring
        _ = digitsValue digits * 10 ^ k := by rw [hj', mul_one]
    · next hlength =>
      have hexponent : (0 : Int) - (digits.drop n).length = n - digits.length := by
        rw [List.length_drop]
        omega
      simp only [Magnitude.toRat, Option.getD_some, List.take_append_drop, Option.elim_none,
        hexponent]

/-- Digits before an exponent say what the digits and the position of the point say. -/
theorem scaled_toRat {exponentSign : Option Sign} (h : exponentSign ≠ some .negative)
    (hne : digits ≠ []) :
    (scaled exponentSign digits point).toRat =
      digitsValue digits * 10 ^ (point - digits.length) := by
  have hpos := List.length_pos_of_ne_nil hne
  have hexponent : Exponent.value ⟨false, if point - 1 < 0 then some .negative else exponentSign,
      Nat.toDigits 10 (point - 1).natAbs⟩ = point - 1 := by
    simp only [Exponent.value, digitsValue_toDigits]
    split
    · simp only [signedValue]
      omega
    · unfold signedValue
      split
      · contradiction
      · omega
      · omega
  unfold scaled
  simp only [Magnitude.toRat, Option.elim_some, hexponent]
  split
  · next hlength =>
    have htake : digits.take 1 = digits := List.take_of_length_le hlength
    have hone : point - 1 - ([] : List Char).length = point - digits.length := by
      rw [List.length_nil]
      omega
    rw [Option.getD_none, htake, List.append_nil, hone]
  · have hdrop : point - 1 - (digits.drop 1).length = point - digits.length := by
      rw [List.length_drop]
      omega
    rw [Option.getD_some, List.take_append_drop, hdrop]

section

variable (hdigits : AllDigits digits) (hne : digits ≠ []) (sign : Option Sign)
include hdigits hne

theorem placed_wellFormed {wholeFraction : Option (List Char)} (h : Zeros wholeFraction) :
    Numeral.WellFormed ⟨sign, placed wholeFraction digits point⟩ := by
  unfold placed
  split
  · refine ⟨allDigits_zeros 1, allDigits_append (allDigits_zeros _) hdigits, by simp, nofun⟩
  · dsimp only
    split
    · obtain ⟨j, hj⟩ := h.getD
      exact ⟨allDigits_append hdigits (allDigits_zeros _), hj ▸ allDigits_zeros j, by simp [hne],
        nofun⟩
    · exact ⟨fun c hc => hdigits c (List.mem_of_mem_take hc),
        fun c hc => hdigits c (List.mem_of_mem_drop hc), by simpa using hne, nofun⟩

theorem scaled_wellFormed (exponentSign : Option Sign) :
    Numeral.WellFormed ⟨sign, scaled exponentSign digits point⟩ := by
  have htake : AllDigits (digits.take 1) := fun c hc => hdigits c (List.mem_of_mem_take hc)
  have hdrop : AllDigits ((if digits.length ≤ 1 then none else some (digits.drop 1)).getD []) := by
    split
    · exact nofun
    · exact fun c hc => hdigits c (List.mem_of_mem_drop hc)
  refine ⟨htake, hdrop, by simp [hne], fun e he => ?_⟩
  obtain rfl := Option.mem_some.mp he
  exact ⟨fun c hc => Nat.isDigit_of_mem_toDigits (by decide) (by decide) hc, Nat.toDigits_ne_nil⟩

end

/-! ## Numbers in a style -/

theorem chars_ne_nil (d : Decimal) : d.chars ≠ [] := Nat.toDigits_ne_nil

theorem allDigits_chars (d : Decimal) : AllDigits d.chars :=
  fun _ hc => Nat.isDigit_of_mem_toDigits (by decide) (by decide) hc

namespace Style

/-- The styles that add nothing but zeros, and no minus sign to an exponent. -/
structure Faithful (style : Style) : Prop where
  zeros : Zeros style.wholeFraction
  upward : style.exponentSign ≠ some .negative

theorem display_faithful : display.Faithful := ⟨nofun, nofun⟩

variable {style : Style} (h : style.Faithful)
include h

theorem magnitude_toRat (d : Decimal) : (style.magnitude d).toRat = d.toRat := by
  have hexponent : d.point - d.chars.length = d.exponent := by
    unfold point
    omega
  have hdigits : digitsValue d.chars = d.digits := digitsValue_toDigits _
  unfold magnitude
  split
  · rw [placed_toRat h.zeros, hexponent, hdigits, toRat]
  · rw [scaled_toRat h.upward d.chars_ne_nil, hexponent, hdigits, toRat]

theorem magnitude_wellFormed (sign : Option Sign) (d : Decimal) :
    Numeral.WellFormed ⟨sign, style.magnitude d⟩ := by
  unfold magnitude
  split
  · exact placed_wellFormed d.allDigits_chars d.chars_ne_nil sign h.zeros
  · exact scaled_wellFormed d.allDigits_chars d.chars_ne_nil sign _

/-- **A finite number is written as a numeral of the same number.** -/
theorem finite_value {m : Nat} {q : Int} (hp : Proper m q) (s : Sign) :
    (style.finite s m q).value = ofParts (.finite s m q hp.pos) := by
  obtain ⟨-, hrounds⟩ := shortest_rounds style.tie hp.pos q
  rw [← magnitude_toRat h] at hrounds
  have hvalue := Magnitude.value_eq hp hrounds
  cases s with
  | positive => exact hvalue
  | negative =>
    show -(style.magnitude (shortest style.tie m q)).value = _
    rw [hvalue, neg_ofParts (.finite .positive hp)]
    rfl

theorem exists_numeral_of_parts {x : Float} {s : Sign} {m : Nat} {q : Int} (hp : Proper m q)
    (hx : parts x = .finite s m q hp.pos) :
    ∃ n : Numeral, n.WellFormed ∧ n.chars = style.chars x ∧ n.value = x := by
  refine ⟨style.finite s m q, magnitude_wellFormed h _ _, ?_, ?_⟩
  · rw [chars, hx]
  · rw [finite_value h hp s, ← hx, ofParts_parts]

end Style

end Decimal

end DeskCalculator
