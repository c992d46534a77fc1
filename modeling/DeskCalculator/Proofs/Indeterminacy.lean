import DeskCalculator.Proofs.Domains
import DeskCalculator.Proofs.LogarithmBounds
import DeskCalculator.Proofs.RoundedProducts

/-!
# DeskCalculator.Proofs.Indeterminacy — where a guarded operation still gives NaN

A guard refuses the operands of an operation that it has no value for.  It compares with zero, with
one and with minus one, so that no infinity is refused by a quotient or by a logarithm to a base.
Two infinities have no quotient, and these are the only operands other than NaN from which a guarded
operation gives NaN: a quotient of two zeros is refused, and the logarithm of the base is not zero.

* `Binary64.div_eq_notANumber_iff`: the quotients that are NaN.
* `Binary64.naturalLog_of_denotes`: a logarithm is finite, and zero for the number one only.
* `Computation.value_eq_notANumber_iff`: the guarded operations that give NaN.
-/

namespace DeskCalculator

namespace Binary64

open Float.Model.UnpackedFloat

/-! ## Rounding and arithmetic -/

theorem roundWithAccuracy_ne_notANumber (s : Sign) (m : Nat) (e : Int) (accuracy : Accuracy) :
    roundWithAccuracy .binary64 s m e accuracy ≠ .notANumber := by
  unfold roundWithAccuracy
  dsimp only
  split <;> nofun

theorem nearest_ne_notANumber (s : Sign) (m : Nat) (q : Int) : nearest s m q ≠ notANumber := by
  rw [nearest_eq, Ne, ofParts_eq_notANumber]
  exact roundWithAccuracy_ne_notANumber _ _ _ _

/-- Within the range the number nearest to a significand with an exponent is finite. -/
theorem parts_nearest_of_inRange (s : Sign) {n : Nat} {e : Int} (hn : n ≠ 0)
    (h : InRange (n * 2 ^ e)) :
    ∃ m q, ∃ hp : Proper m q, parts (nearest s n e) = .finite s m q hp.pos := by
  obtain ⟨m, q, hp, hrounds⟩ := exists_rounds h
  refine ⟨m, q, hp, ?_⟩
  rw [nearest_eq, round_eq hp.shaped hrounds hn, parts_ofParts (.finite s hp)]

theorem nearestInt_ne_notANumber (n q : Int) : nearestInt n q ≠ notANumber :=
  nearest_ne_notANumber _ _ _

section

variable {x y : Float}

theorem parts_eq_zero_iff {s : Sign} : parts x = .zero s ↔ x = zero s :=
  ⟨fun h => eq_of_parts_eq (h.trans (parts_zero s).symm), fun h => h ▸ parts_zero s⟩

theorem parts_eq_infinity_iff {s : Sign} : parts x = .infinity s ↔ x = infinity s :=
  ⟨fun h => eq_of_parts_eq (h.trans (parts_infinity s).symm), fun h => h ▸ parts_infinity s⟩

theorem div_parts_eq_notANumber {u v : Parts} (hu : u ≠ .notANumber) (hv : v ≠ .notANumber) :
    div .binary64 u v = .notANumber ↔
      (∃ s t, u = .zero s ∧ v = .zero t) ∨ ∃ s t, u = .infinity s ∧ v = .infinity t := by
  cases u with
  | notANumber => exact absurd rfl hu
  | infinity s | zero s => cases v <;> simp_all [div]
  | finite s m q hm => cases v <;> simp_all [div, roundWithAccuracy_ne_notANumber]

/-- Of two numbers only two zeros, or two infinities, have no quotient. -/
theorem div_eq_notANumber_iff (hx : x ≠ notANumber) (hy : y ≠ notANumber) :
    x / y = notANumber ↔
      (∃ s t, x = zero s ∧ y = zero t) ∨ ∃ s t, x = infinity s ∧ y = infinity t := by
  have hdiv : x / y = ofParts (div .binary64 (parts x) (parts y)) := rfl
  rw [Ne, eq_notANumber_iff] at hx hy
  rw [hdiv, ofParts_eq_notANumber, div_parts_eq_notANumber hx hy]
  simp only [parts_eq_zero_iff, parts_eq_infinity_iff]

theorem div_infinity (s t : Sign) : infinity s / infinity t = notANumber :=
  (div_eq_notANumber_iff (infinity_ne_notANumber s) (infinity_ne_notANumber t)).mpr
    (.inr ⟨s, t, rfl, rfl⟩)

/-- A finite factor other than zero makes no NaN. -/
theorem mul_ne_notANumber {s : Sign} {m : Nat} {q : Int} {hm : 0 < m} (hx : x ≠ notANumber)
    (hy : parts y = .finite s m q hm) : x * y ≠ notANumber := by
  have hmul : x * y = ofParts (mul .binary64 (parts x) (parts y)) := rfl
  rw [Ne, eq_notANumber_iff] at hx
  rw [hmul, Ne, ofParts_eq_notANumber, hy]
  cases hu : parts x with
  | notANumber => exact absurd hu hx
  | infinity t | zero t => nofun
  | finite t n r hn => exact roundWithAccuracy_ne_notANumber _ _ _ _

theorem sqrt_ne_notANumber (hx : x ≠ notANumber) (hsign : ¬ x < 0) : x.sqrt ≠ notANumber := by
  have hsqrt : x.sqrt = ofParts (sqrt .binary64 (parts x)) := rfl
  rw [hsqrt, Ne, ofParts_eq_notANumber]
  cases hu : parts x with
  | notANumber => exact absurd (eq_notANumber_iff.mpr hu) hx
  | infinity s =>
    cases s with
    | positive => nofun
    | negative =>
      refine absurd ?_ hsign
      rw [lt_iff_compare, hu, zero_literal, parts_zero]
      rfl
  | zero s => nofun
  | finite s m q hm =>
    cases s with
    | positive => exact roundWithAccuracy_ne_notANumber _ _ _ _
    | negative => exact absurd (neg_of_parts hu) hsign

/-- What is not NaN and not at most zero is positive. -/
theorem positive_cases (hx : x ≠ notANumber) (hpos : ¬ x ≤ 0) :
    x = infinity .positive ∨ ∃ a, Denotes x a := by
  rw [zero_literal] at hpos
  rcases number_cases x with rfl | ⟨s, rfl⟩ | ⟨s, rfl⟩ | ⟨s, m, q, hp, hparts⟩
  · exact absurd rfl hx
  · cases s with
    | positive => exact .inl rfl
    | negative =>
      refine absurd ?_ hpos
      rw [le_iff_compare, parts_infinity, parts_zero]
      rfl
  · exact absurd (zero_le_zero s .positive) hpos
  · cases s with
    | positive => exact .inr ⟨_, m, q, hp, hparts, rfl⟩
    | negative =>
      refine absurd ?_ hpos
      rw [le_iff_compare, hparts, parts_zero]
      rfl

/-- What is neither below minus one nor above one, and not NaN, is at most one in size. -/
theorem unit_cases (hx : x ≠ notANumber) (hrange : ¬ (x < -1 ∨ 1 < x)) :
    (∃ s, x = zero s) ∨ ∃ s m q, ∃ hp : Proper m q, parts x = .finite s m q hp.pos ∧
      (m : ℚ) * 2 ^ q ≤ 1 := by
  rcases number_cases x with rfl | ⟨s, rfl⟩ | ⟨s, rfl⟩ | ⟨s, m, q, hp, hparts⟩
  · exact absurd rfl hx
  · refine absurd ?_ hrange
    rw [lt_iff_compare, lt_iff_compare, parts_infinity, parts_one, parts_minusOne]
    cases s with
    | positive => exact .inr rfl
    | negative => exact .inl rfl
  · exact .inl ⟨s, rfl⟩
  · refine .inr ⟨s, m, q, hp, hparts, ?_⟩
    have hone : ((2 ^ 52 : Nat) : ℚ) * 2 ^ (-52 : Int) = 1 := by norm_num
    have hcompare := compare_value proper_one hp
    by_contra hlarge
    rw [hone, compare_lt_iff_lt.mpr (not_le.mp hlarge)] at hcompare
    refine hrange ?_
    cases s with
    | positive =>
      right
      rw [lt_iff_compare, parts_one, hparts, beq_iff_eq]
      exact congrArg some hcompare
    | negative =>
      left
      have hswap := compare_value hp proper_one
      rw [hone, compare_gt_iff_gt.mpr (not_le.mp hlarge)] at hswap
      rw [lt_iff_compare, parts_minusOne, hparts, beq_iff_eq]
      exact congrArg (fun order => some order.swap) hswap

end

end Binary64

open Binary64

/-! ## The functions -/

namespace Elementary

variable {x : Float} {m : Nat} {q : Int} {a : ℚ}

theorem fixed_le_one (hp : Proper m q) (h : (m : ℚ) * 2 ^ q ≤ 1) : fixed m q ≤ one := by
  unfold fixed
  split
  · next hplaces =>
    obtain ⟨k, hk⟩ := Int.eq_ofNat_of_zero_le hplaces
    have hunits : (m : ℚ) * 2 ^ k ≤ one :=
      calc (m : ℚ) * 2 ^ k = m * 2 ^ q * 2 ^ (places : Int) := by
            rw [mul_assoc, ← zpow_add₀ (by norm_num), hk, zpow_natCast]
        _ ≤ 1 * 2 ^ (places : Int) := mul_le_mul_of_nonneg_right h (two_zpow_pos _).le
        _ = one := by norm_num [one, places]
    rw [hk]
    exact_mod_cast hunits
  · exact (Nat.div_le_self m _).trans (hp.below.le.trans (by decide))

theorem arcsine_ne_notANumber (hx : x ≠ notANumber) (hrange : ¬ (x < -1 ∨ 1 < x)) :
    arcsine x ≠ notANumber := by
  unfold arcsine
  rcases unit_cases hx hrange with ⟨s, rfl⟩ | ⟨s, m, q, hp, hparts, hone⟩
  · rw [parts_zero]
    exact hx
  · rw [hparts]
    dsimp only
    rw [if_pos (fixed_le_one hp hone)]
    split
    · exact hx
    · exact nearest_ne_notANumber _ _ _

theorem arccosine_ne_notANumber (hx : x ≠ notANumber) (hrange : ¬ (x < -1 ∨ 1 < x)) :
    arccosine x ≠ notANumber := by
  unfold arccosine
  rcases unit_cases hx hrange with ⟨s, rfl⟩ | ⟨s, m, q, hp, hparts, hone⟩
  · rw [parts_zero]
    exact nearest_ne_notANumber _ _ _
  · rw [hparts]
    dsimp only
    rw [if_pos (fixed_le_one hp hone)]
    cases s <;> exact nearest_ne_notANumber _ _ _

theorem logarithm_infinity (scale : Int → Int) :
    logarithm scale (infinity .positive) = infinity .positive := by
  rw [logarithm, parts_infinity]

theorem logarithm_ne_notANumber (scale : Int → Int) (hx : x ≠ notANumber) (hpos : ¬ x ≤ 0) :
    logarithm scale x ≠ notANumber := by
  rcases positive_cases hx hpos with rfl | ⟨a, m, q, hp, hparts, -⟩
  · rwa [logarithm_infinity]
  · rw [logarithm, hparts]
    exact nearestInt_ne_notANumber _ _

/-- A sum of the size of a logarithm is within the range. -/
theorem inRange_fixedLog (hp : Proper m q) (hzero : fixedLog m q ≠ 0) :
    InRange ((fixedLog m q).natAbs * 2 ^ (-places : Int)) := by
  have hsize : |fixedLog m q| ≤ (|q| + 55) * one := abs_fixedLog_le hp.pos hp.below
  have hexponent : |q| ≤ 1074 := abs_le.mpr ⟨hp.least, hp.greatest.trans (by norm_num)⟩
  have hmost : (fixedLog m q).natAbs ≤ 1129 * one := by
    zify
    exact hsize.trans (mul_le_mul_of_nonneg_right (by linarith) one_pos.le)
  have hleast : (1 : ℚ) ≤ (fixedLog m q).natAbs := by
    exact_mod_cast Int.natAbs_pos.mpr hzero
  have hpos := two_zpow_pos (-places)
  constructor
  · calc (2 : ℚ) ^ (-1075 : Int) < 2 ^ (-places : Int) :=
          zpow_lt_zpow_right₀ (by norm_num) (by norm_num [places])
      _ ≤ (fixedLog m q).natAbs * 2 ^ (-places : Int) := le_mul_of_one_le_left hpos.le hleast
  · have hmost : ((fixedLog m q).natAbs : ℚ) ≤ (1129 * one : Nat) := by exact_mod_cast hmost
    calc ((fixedLog m q).natAbs : ℚ) * 2 ^ (-places : Int)
      _ ≤ (1129 * one : Nat) * 2 ^ (-places : Int) := mul_le_mul_of_nonneg_right hmost hpos.le
      _ ≤ 10 ^ 4 := by norm_num [one, places]
      _ ≤ 10 ^ 308 := pow_le_pow_right₀ (by norm_num) (by norm_num)
      _ < tooLarge := ten_pow_lt_tooLarge

/-- **The logarithm of a finite number** is finite, and zero for the number one only. -/
theorem naturalLog_of_denotes (hx : Denotes x a) (hone : x ≠ 1) :
    ∃ s m q, ∃ hp : Proper m q, parts (naturalLog x) = .finite s m q hp.pos := by
  obtain ⟨m, q, hp, hparts, rfl⟩ := hx
  have hzero : fixedLog m q ≠ 0 := by
    intro h
    have hvalue := fixedLog_eq_zero hp.pos hp.below h
    exact hone (Denotes.unique ⟨m, q, hp, hparts, hvalue.symm⟩ denotes_one)
  have hlog : naturalLog x = nearestInt (fixedLog m q) (-places) := by
    rw [naturalLog, logarithm, hparts]
    rfl
  rw [hlog]
  exact ⟨_, parts_nearest_of_inRange _ (Int.natAbs_ne_zero.mpr hzero) (inRange_fixedLog hp hzero)⟩

/-- The logarithm of a number is infinite, zero, or finite and not zero. -/
theorem naturalLog_cases (hx : x ≠ notANumber) (hpos : ¬ x ≤ 0) :
    (x = infinity .positive ∧ naturalLog x = infinity .positive) ∨
      (x = 1 ∧ naturalLog x = zero .positive) ∨
      ∃ s m q, ∃ hp : Proper m q, parts (naturalLog x) = .finite s m q hp.pos := by
  rcases positive_cases hx hpos with rfl | ⟨a, ha⟩
  · exact .inl ⟨rfl, logarithm_infinity id⟩
  · by_cases hone : x = 1
    · exact .inr (.inl ⟨hone, hone ▸ by decide +kernel⟩)
    · exact .inr (.inr (naturalLog_of_denotes ha hone))

theorem eq_infinity_of_naturalLog {s : Sign} (hx : x ≠ notANumber) (hpos : ¬ x ≤ 0)
    (h : parts (naturalLog x) = .infinity s) : x = infinity .positive := by
  rcases naturalLog_cases hx hpos with ⟨hx, -⟩ | ⟨-, hlog⟩ | ⟨s, m, q, hp, hparts⟩
  · exact hx
  · rw [hlog, parts_zero] at h
    cases h
  · rw [hparts] at h
    cases h

theorem eq_one_of_naturalLog {s : Sign} (hx : x ≠ notANumber) (hpos : ¬ x ≤ 0)
    (h : parts (naturalLog x) = .zero s) : x = 1 := by
  rcases naturalLog_cases hx hpos with ⟨-, hlog⟩ | ⟨hx, -⟩ | ⟨s, m, q, hp, hparts⟩
  · rw [hlog, parts_infinity] at h
    cases h
  · exact hx
  · rw [hparts] at h
    cases h

end Elementary

theorem AngleUnit.ofRadians_ne_notANumber (unit : AngleUnit) {x : Float} (hx : x ≠ notANumber) :
    unit.ofRadians x ≠ notANumber := by
  cases unit with
  | radians => exact hx
  | degrees =>
    have hfactor : (180 / pi ≠ notANumber ∧ ¬ 180 / pi ≤ 0) ∧ 180 / pi ≠ infinity .positive := by
      decide +kernel
    obtain ⟨a, m, q, hp, hparts, -⟩ :=
      (positive_cases hfactor.1.1 hfactor.1.2).resolve_left hfactor.2
    exact mul_ne_notANumber hx hparts

/-- The factorial is a number, or the infinity. -/
theorem factorial_ne_notANumber {n r : Float} (h : factorial n = .ok r) : r ≠ notANumber := by
  obtain ⟨N, -, hr⟩ := multiplied_of_factorial h
  cases hr with
  | product hN product hr =>
    obtain ⟨m, q, hp, hparts, -⟩ := hr
    rw [Ne, eq_notANumber_iff, hparts]
    nofun
  | overflow hN => exact infinity_ne_notANumber .positive

/-! ## The guarded operations -/

/-- Whether an operation on one number is refused for some of them. -/
def Unary.isGuarded : Unary → Bool
  | squareRoot | factorial | arcsine | arccosine | commonLog | naturalLog => true
  | cubeRoot | sine | cosine | tangent | arctangent => false

/-- Whether an operation on two numbers is refused for some of them. -/
def Binary.isGuarded : Binary → Bool
  | divide | logarithm => true
  | add | subtract | multiply | modulus | power => false

namespace Computation

/-- Whether the operation is refused for some operands. -/
def isGuarded : Computation → Bool
  | unary f _ => f.isGuarded
  | binary f _ _ => f.isGuarded

/-- The operands that pass the guards and have no value all the same. -/
inductive Indeterminate : Computation → Prop
  | divide (s t : Sign) : Indeterminate (.binary .divide (infinity s) (infinity t))
  | logarithm : Indeterminate (.binary .logarithm (infinity .positive) (infinity .positive))

variable {unit : AngleUnit}

theorem value_of_indeterminate {c : Computation} (h : c.Indeterminate) :
    c.value unit = .ok notANumber := by
  cases h with
  | divide s t =>
    have hzero : ¬ (infinity t == 0) = true := by
      rw [beq_zero_iff]
      exact fun ⟨u, hu⟩ => infinity_ne_zero t u hu
    exact (if_neg hzero).trans (congrArg _ (div_infinity s t))
  | logarithm =>
    show Binary.logarithm.value (infinity .positive) (infinity .positive) = .ok notANumber
    decide +kernel

/-- A guarded operation on one number never gives NaN from another number. -/
theorem unary_value_ne_notANumber {f : Unary} {x : Float} (hf : f.isGuarded = true)
    (hx : x ≠ notANumber) : f.value unit x ≠ .ok notANumber := by
  intro h
  cases f with
  | cubeRoot | sine | cosine | tangent | arctangent => cases hf
  | factorial => exact factorial_ne_notANumber h rfl
  | squareRoot =>
    obtain ⟨hsign, hvalue⟩ := guard_eq_ok h
    exact sqrt_ne_notANumber hx hsign hvalue
  | arcsine =>
    obtain ⟨hrange, hvalue⟩ := guard_eq_ok h
    refine unit.ofRadians_ne_notANumber ?_ hvalue
    exact Elementary.arcsine_ne_notANumber hx (by simpa using hrange)
  | arccosine =>
    obtain ⟨hrange, hvalue⟩ := guard_eq_ok h
    refine unit.ofRadians_ne_notANumber ?_ hvalue
    exact Elementary.arccosine_ne_notANumber hx (by simpa using hrange)
  | commonLog | naturalLog =>
    obtain ⟨hpos, hvalue⟩ := guard_eq_ok h
    exact Elementary.logarithm_ne_notANumber _ hx hpos hvalue

/-- A zero is refused as a divisor, so that a quotient is NaN for two infinities only. -/
theorem indeterminate_of_divide {a b : Float} (ha : a ≠ notANumber) (hb : b ≠ notANumber)
    (h : Binary.divide.value a b = .ok notANumber) : (binary .divide a b).Indeterminate := by
  obtain ⟨hzero, hvalue⟩ := guard_eq_ok h
  rcases (div_eq_notANumber_iff ha hb).mp hvalue with ⟨s, t, -, rfl⟩ | ⟨s, t, rfl, rfl⟩
  · exact absurd (beq_zero_iff.mpr ⟨t, rfl⟩) hzero
  · exact .divide s t

/-- The logarithm of a base is not zero, and it is infinite for the infinity only. -/
theorem indeterminate_of_logarithm {a b : Float} (ha : a ≠ notANumber) (hb : b ≠ notANumber)
    (h : Binary.logarithm.value a b = .ok notANumber) : (binary .logarithm a b).Indeterminate := by
  simp only [Binary.value] at h
  split at h
  · cases h
  · next hbase =>
    obtain ⟨hb', hvalue⟩ := guard_eq_ok h
    obtain ⟨ha', hone⟩ : ¬ a ≤ 0 ∧ a ≠ 1 := by simpa [beq_one_iff] using hbase
    have hloga := Elementary.logarithm_ne_notANumber id ha ha'
    have hlogb := Elementary.logarithm_ne_notANumber id hb hb'
    rcases (div_eq_notANumber_iff hlogb hloga).mp hvalue with ⟨s, t, -, hzero⟩ | ⟨s, t, hs, ht⟩
    · exact absurd (Elementary.eq_one_of_naturalLog ha ha' (parts_eq_zero_iff.mpr hzero)) hone
    · obtain rfl := Elementary.eq_infinity_of_naturalLog ha ha' (parts_eq_infinity_iff.mpr ht)
      obtain rfl := Elementary.eq_infinity_of_naturalLog hb hb' (parts_eq_infinity_iff.mpr hs)
      exact .logarithm

/-- **Where a guarded operation gives NaN.**  With operands that are not NaN themselves it does so
for the quotient of two infinities and for the logarithm of infinity to the base infinity, in either
unit; for all others it is refused or has a number for its value. -/
theorem value_eq_notANumber_iff {c : Computation} (hc : c.isGuarded = true)
    (hfirst : c.first ≠ notANumber) (hsecond : c.second ≠ some notANumber) :
    c.value unit = .ok notANumber ↔ c.Indeterminate := by
  refine ⟨fun h => ?_, value_of_indeterminate⟩
  cases c with
  | unary f x => exact absurd h (unary_value_ne_notANumber hc hfirst)
  | binary f a b =>
    have hb : b ≠ notANumber := fun hb => hsecond (congrArg some hb)
    cases f with
    | divide => exact indeterminate_of_divide hfirst hb h
    | logarithm => exact indeterminate_of_logarithm hfirst hb h
    | add | subtract | multiply | modulus | power => cases hc

/-- Infinities of different signs have no quotient; a zero with a minus sign has an arcsine. -/
theorem value_of_infinities_and_zero :
    (infinity .positive ≠ notANumber ∧ some (infinity .negative) ≠ some notANumber ∧
      (binary .divide (infinity .positive) (infinity .negative)).value .degrees = .ok notANumber) ∧
    zero .negative ≠ notANumber ∧
      (unary .arcsine (zero .negative)).value .degrees ≠ .ok notANumber := by
  have hplus := infinity_ne_notANumber .positive
  have hminus : some (infinity .negative) ≠ some notANumber :=
    fun h => infinity_ne_notANumber .negative (Option.some.inj h)
  have hzero := zero_ne_notANumber .negative
  have hquotient : (binary .divide (infinity .positive) (infinity .negative)).value .degrees =
      .ok notANumber ↔ _ := value_eq_notANumber_iff rfl hplus hminus
  have harcsine : (unary .arcsine (zero .negative)).value .degrees = .ok notANumber ↔ _ :=
    value_eq_notANumber_iff rfl hzero nofun
  exact ⟨⟨hplus, hminus, hquotient.mpr (.divide .positive .negative)⟩, hzero,
    mt harcsine.mp nofun⟩

/-- No operand is NaN and none is refused, and yet there is no value. -/
theorem infinities_pass_guards :
    infinity .positive ≠ notANumber ∧
      Binary.divide.value (infinity .positive) (infinity .positive) = .ok notANumber ∧
      Binary.logarithm.value (infinity .positive) (infinity .positive) = .ok notANumber := by
  decide +kernel

end Computation

end DeskCalculator
