import DeskCalculator.Proofs.JsonText
import DeskCalculator.Proofs.Styles

/-!
# DeskCalculator.Proofs.JsonNumbers — the numbers that are written in JSON

A finite number is written as a numeral that has the form of a number in JSON: its first digit is
no zero, unless it is the only one before the point, and there are digits behind the point.

* `Value.writable_ofFloat`: the value of a number can be written and read back.
-/

namespace DeskCalculator

open Binary64
open Json (isNumber Value)

/-- The first digit of a positive number is no zero. -/
theorem toDigits_opens {n : Nat} (hn : 0 < n) : ∃ c cs, Nat.toDigits 10 n = c :: cs ∧ c ≠ '0' := by
  induction n using Nat.strong_induction_on with
  | _ n ih =>
    by_cases hsmall : n < 10
    · rw [Nat.toDigits_of_lt_base hsmall]
      refine ⟨_, _, rfl, ?_⟩
      interval_cases n <;> decide
    · obtain ⟨c, cs, hdigits, hc⟩ := ih (n / 10) (by omega) (by omega)
      rw [Nat.toDigits_of_base_le (by decide) (by omega), hdigits]
      exact ⟨c, _, rfl, hc⟩

namespace Decimal

open Numeral (Exponent)

variable {digits : List Char} {point : Int} {sign : Option Sign}

section

variable (hopens : ∃ c cs, digits = c :: cs ∧ c ≠ '0') (hsign : sign ≠ some .positive)
include hopens hsign

theorem decimal_isNumber {whole : List Char} {fraction : Option (List Char)}
    (hwhole : whole.head? = digits.head?) (hfraction : fraction ≠ some [])
    (exponent : Option Exponent) : isNumber ⟨sign, .decimal whole fraction exponent⟩ = true := by
  obtain ⟨c, cs, rfl, hc⟩ := hopens
  cases whole with
  | nil => cases hwhole
  | cons d whole =>
    obtain rfl : d = c := by simpa using hwhole
    rcases sign with _ | _ | _
    · simp [isNumber, hc, hfraction]
    · simp [isNumber, hc, hfraction]
    · exact absurd rfl hsign

theorem placed_isNumber : isNumber ⟨sign, placed json.wholeFraction digits point⟩ = true := by
  unfold placed
  split
  · obtain ⟨c, cs, rfl, -⟩ := hopens
    rcases sign with _ | _ | _
    · simp [isNumber]
    · simp [isNumber]
    · exact absurd rfl hsign
  · next hpoint =>
    dsimp only
    split
    · refine decimal_isNumber hopens hsign ?_ (by decide) none
      obtain ⟨c, cs, rfl, -⟩ := hopens
      rfl
    · next hlength =>
      refine decimal_isNumber hopens hsign ?_ ?_ none
      · rw [List.head?_take, if_neg (by omega)]
      · simpa using hlength

theorem scaled_isNumber (exponentSign : Option Sign) :
    isNumber ⟨sign, scaled exponentSign digits point⟩ = true := by
  unfold scaled
  refine decimal_isNumber hopens hsign ?_ ?_ _
  · rw [List.head?_take, if_neg (by omega)]
  · split
    · exact nofun
    · next hlength =>
      simp only [Option.some.injEq, ne_eq, List.drop_eq_nil_iff]
      exact hlength

end

theorem json_faithful : json.Faithful := ⟨fun zeros h => ⟨1, by cases h; rfl⟩, nofun⟩

theorem numberSign_ne_positive (s : Sign) : numberSign s ≠ some .positive := by
  cases s <;> exact nofun

/-- **A finite number is written as a number of JSON.** -/
theorem json_isNumber {m : Nat} (hm : 0 < m) (q : Int) (s : Sign) :
    (json.finite s m q).WellFormed ∧ isNumber (json.finite s m q) = true := by
  refine ⟨Style.magnitude_wellFormed json_faithful _ _, ?_⟩
  obtain ⟨hdigits, -⟩ := shortest_rounds json.tie hm q
  have hopens : ∃ c cs, (shortest json.tie m q).chars = c :: cs ∧ c ≠ '0' := toDigits_opens hdigits
  have hsign := numberSign_ne_positive s
  show isNumber ⟨numberSign s, json.magnitude _⟩ = true
  unfold Style.magnitude
  split
  · exact placed_isNumber hopens hsign
  · exact scaled_isNumber hopens hsign _

theorem json_zero_isNumber (s : Sign) :
    (json.zero s).WellFormed ∧ isNumber (json.zero s) = true := by
  refine ⟨placed_wellFormed (allDigits_zeros 1) (by decide) _ json_faithful.zeros, ?_⟩
  cases s <;> decide

theorem json_numeral?_isNumber {x : Float} {n : Numeral} (h : json.numeral? x = some n) :
    n.WellFormed ∧ isNumber n = true := by
  unfold Style.numeral? at h
  split at h
  · cases h
  · cases h
  · cases h
    exact json_zero_isNumber _
  · next s m q hm _ =>
    cases h
    exact json_isNumber hm q s

/-- The finite numbers are the ones that have a numeral. -/
theorem isSome_numeral? (style : Style) (x : Float) : (style.numeral? x).isSome = x.isFinite := by
  rw [isFinite_eq]
  unfold Style.numeral?
  cases parts x <;> rfl

end Decimal

/-! ## The values of numbers -/

namespace Json.Value

theorem ofFloat_of_finite {x : Float} (h : x.isFinite = true) :
    ∃ n, Decimal.json.numeral? x = some n ∧ ofFloat x = .number n := by
  rw [← Decimal.isSome_numeral? Decimal.json] at h
  obtain ⟨n, hn⟩ := Option.isSome_iff_exists.mp h
  exact ⟨n, hn, by simp [ofFloat, hn]⟩

theorem ofFloat_of_not_finite {x : Float} (h : x.isFinite = false) : ofFloat x = .null := by
  rw [← Decimal.isSome_numeral? Decimal.json, Option.isSome_eq_false_iff,
    Option.isNone_iff_eq_none] at h
  simp [ofFloat, h]

/-- **The value of a number can be written and read back.** -/
theorem writable_ofFloat (x : Float) : (ofFloat x).Writable := by
  cases hx : x.isFinite with
  | true =>
    obtain ⟨n, hn, hvalue⟩ := ofFloat_of_finite hx
    obtain ⟨hwell, hform⟩ := Decimal.json_numeral?_isNumber hn
    rw [hvalue]
    exact .number hwell hform
  | false =>
    rw [ofFloat_of_not_finite hx]
    exact .null

/-- The value of a whole number can be written and read back. -/
theorem writable_ofNat (n : Nat) : (ofNat n).Writable := by
  have hdigits : Numeral.AllDigits (Nat.toDigits 10 n) :=
    fun _ hc => Nat.isDigit_of_mem_toDigits (by decide) (by decide) hc
  refine .number ⟨hdigits, nofun, by simp, nofun⟩ ?_
  by_cases hn : n = 0
  · subst hn
    rfl
  · have hopens := toDigits_opens (Nat.pos_of_ne_zero hn)
    have hsign : (none : Option Sign) ≠ some .positive := nofun
    have hfraction : (none : Option (List Char)) ≠ some [] := nofun
    exact Decimal.decimal_isNumber hopens hsign rfl hfraction none

end Json.Value

end DeskCalculator
