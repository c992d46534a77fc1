import DeskCalculator.Proofs.Scaling
import DeskCalculator.Proofs.Styles

/-!
# DeskCalculator.Proofs.Conversion — a decimal of any size is read as the number nearest to it

A decimal within the range is read as the number that it is rounded to.  Beyond the range there is
an infinity at the one end, and a zero at the other.  `Nearest r x` says which of the three it is,
and for every decimal there is just one such number, the one that it is read as.

* `Numeral.nearest_iff`: the number nearest to a decimal.
* `Numeral.says_iff`: what a numeral says is its value.
-/

namespace DeskCalculator.Binary64

/-- `x` is the number nearest to `r`, which is not negative.  Half of the least number and what is
below it goes to zero; what is at least half a step above the largest number goes to infinity. -/
inductive Nearest (r : ℚ) : Float → Prop
  | zero (tiny : r ≤ 2 ^ (-1075 : Int)) : Nearest r (zero .positive)
  | finite {m : Nat} {q : Int} (hp : Proper m q) (rounds : Rounds m q r) :
      Nearest r (ofParts (.finite .positive m q hp.pos))
  | infinity (large : tooLarge ≤ r) : Nearest r (infinity .positive)

theorem exists_nearest (r : ℚ) : ∃ x, Nearest r x := by
  rcases le_or_gt r (2 ^ (-1075 : Int)) with hlow | hlow
  · exact ⟨_, .zero hlow⟩
  rcases lt_or_ge r tooLarge with hhigh | hhigh
  · obtain ⟨m, q, hp, hrounds⟩ := exists_rounds ⟨hlow, hhigh⟩
    exact ⟨_, .finite hp hrounds⟩
  · exact ⟨_, .infinity hhigh⟩

section

variable {x y : Float} {a b : ℚ}

/-- A product is the number nearest to the exact one. -/
theorem Denotes.mul_nearest (hx : Denotes x a) (hy : Denotes y b) (hnormal : 2 ^ (-1022 : Int) ≤ a)
    (hlow : 2 ^ (-1075 : Int) < a * b) : Nearest (a * b) (x * y) := by
  obtain ⟨m, q, hs, hrounds⟩ := exists_shaped hlow
  obtain ⟨m₁, q₁, hp₁, hparts₁, rfl, hlong⟩ := hx.long hnormal
  obtain ⟨m₂, q₂, hp₂, hparts₂, rfl⟩ := hy
  rw [mul_parts hparts₁ hparts₂ hs hrounds hlong]
  rcases le_or_gt q 971 with hq | hq
  · exact .finite (hs.proper hq) hrounds
  · have hinfinity := ofParts_of_large .positive hs (by omega)
    have hlarge := hrounds.tooLarge_le hs (by omega)
    exact hinfinity ▸ .infinity hlarge

end

/-- The number nearest to a rational is not NaN. -/
theorem Nearest.ne_notANumber {r : ℚ} {x : Float} (h : Nearest r x) : x ≠ notANumber := by
  rw [Ne, eq_notANumber_iff]
  cases h with
  | zero tiny => rw [parts_zero]; nofun
  | finite hp rounds => rw [parts_ofParts (.finite .positive hp)]; nofun
  | infinity large => rw [parts_infinity]; nofun

theorem neg_ne_notANumber {x : Float} (h : x ≠ notANumber) : -x ≠ notANumber := by
  rw [Ne, eq_notANumber_iff] at h
  show ofParts (Float.Model.UnpackedFloat.neg (parts x)) ≠ notANumber
  rw [Ne, ofParts_eq_notANumber]
  cases hx : parts x with
  | notANumber => exact absurd hx h
  | infinity s | zero s | finite s m q hm => nofun

section

variable {x y : Float} {s : Sign} {m : Nat} {q : Int} {hm : 0 < m}

theorem mul_of_zero (hx : parts x = .zero s) (hy : parts y = .finite .positive m q hm) :
    x * y = zero s := by
  show ofParts (Float.Model.UnpackedFloat.mul .binary64 (parts x) (parts y)) = _
  rw [hx, hy, zero_eq]
  cases s <;> rfl

theorem div_of_zero (hx : parts x = .zero s) (hy : parts y = .finite .positive m q hm) :
    x / y = zero s := by
  show ofParts (Float.Model.UnpackedFloat.div .binary64 (parts x) (parts y)) = _
  rw [hx, hy, zero_eq]
  cases s <;> rfl

end

/-- Digits and a power of ten that are exact are within the range. -/
theorem inRange_of_short {n : Nat} {e : Int} (hn : 0 < n) (hshort : n < 2 ^ 53)
    (he : e.natAbs ≤ 22) : InRange (n * 10 ^ e) := by
  have hone : (1 : ℚ) ≤ n := by exact_mod_cast hn
  have hlow : (10 : ℚ) ^ (-22 : Int) ≤ 10 ^ e := zpow_le_zpow_right₀ (by norm_num) (by omega)
  have hhigh : (10 : ℚ) ^ e ≤ 10 ^ (22 : Int) := zpow_le_zpow_right₀ (by norm_num) (by omega)
  refine ⟨?_, lt_of_le_of_lt ?_ ten_pow_lt_tooLarge⟩
  · calc (2 : ℚ) ^ (-1075 : Int) < 2 ^ (-100 : Int) :=
          zpow_lt_zpow_right₀ (by norm_num) (by norm_num)
      _ ≤ 10 ^ (-22 : Int) := by norm_num
      _ ≤ 10 ^ e := hlow
      _ ≤ n * 10 ^ e := le_mul_of_one_le_left (by positivity) hone
  · calc (n : ℚ) * 10 ^ e ≤ 2 ^ 53 * 10 ^ (22 : Int) :=
          mul_le_mul (by exact_mod_cast hshort.le) hhigh (by positivity) (by positivity)
      _ ≤ 10 ^ 40 := by norm_num
      _ ≤ 10 ^ 308 := pow_le_pow_right₀ (by norm_num) (by norm_num)

end DeskCalculator.Binary64

namespace DeskCalculator.Numeral

open Binary64

section

variable {n : Nat} {e : Int}

/-- No digits but zeros are read as zero. -/
theorem scientific_zero (e : Int) : scientific 0 e = zero .positive := by
  by_cases hshort : 0 < 2 ^ 53 ∧ e.natAbs ≤ 22
  · have hzero : parts (0 : Nat).toUInt64.toFloat = .zero .positive := parts_zero .positive
    obtain ⟨m, q, hp, hparts, -⟩ := parts_powerOfTen (Nat.lt_succ_of_le hshort.2)
    unfold scientific Float.ofScientific
    rw [dif_pos hshort]
    dsimp only
    split
    · exact div_of_zero hzero hparts
    · exact mul_of_zero hzero hparts
  · rw [scientific_of_long hshort, zero_eq]
    rfl

/-- What is at most half of the least number is read as zero. -/
theorem scientific_of_tiny (h : (n * 10 ^ e : ℚ) ≤ 2 ^ (-1075 : Int)) :
    scientific n e = zero .positive := by
  rcases Nat.eq_zero_or_pos n with rfl | hn
  · exact scientific_zero e
  have hshort : ¬ (n < 2 ^ 53 ∧ e.natAbs ≤ 22) := fun hshort =>
    absurd (inRange_of_short hn hshort.1 hshort.2).1 (not_lt.mpr h)
  have hone : (1 : ℚ) ≤ n := by exact_mod_cast hn
  have hneg : e < 0 := by
    by_contra hnonneg
    have hten : (1 : ℚ) ≤ 10 ^ e := one_le_zpow₀ (by norm_num) (by omega)
    have hsmall : (2 : ℚ) ^ (-1075 : Int) < 1 := by
      linarith [three_mul_half_least_lt, least_normal_le, two_zpow_pos (-1075)]
    nlinarith
  rw [scientific_of_long hshort, zero_eq]
  unfold Float.Model.UnpackedFloat.ofScientific
  rw [dif_neg hn.ne', if_neg (fun h : (2 : Int) ^ 11 < e => by omega)]
  split
  · rfl
  · rw [if_neg (by omega)]
    have hten : (10 : ℚ) ^ e = (10 ^ (-e).toNat)⁻¹ := zpow_eq_inv_pow (by omega) 10
    refine congrArg ofParts (div_of_tiny ?_)
    rwa [zpow_zero, mul_one, mul_one, Nat.cast_pow, Nat.cast_ofNat, div_eq_mul_inv, ← hten]

/-- What is too large for a number is read as infinity. -/
theorem scientific_of_tooLarge (h : tooLarge ≤ (n * 10 ^ e : ℚ)) :
    scientific n e = infinity .positive := by
  have hlow : (2 : ℚ) ^ (-1075 : Int) < n * 10 ^ e := by
    have hone : (1 : ℚ) ≤ tooLarge := (one_le_pow₀ (by norm_num)).trans ten_pow_lt_tooLarge.le
    linarith [three_mul_half_least_lt, least_normal_le, two_zpow_pos (-1075)]
  have hn : 0 < n := by
    refine Nat.pos_of_ne_zero ?_
    rintro rfl
    rw [Nat.cast_zero, zero_mul] at hlow
    exact absurd hlow (not_lt.mpr (two_zpow_pos _).le)
  obtain ⟨m, q, hs, hrounds⟩ := exists_shaped hlow
  have hq : 972 ≤ q := by
    by_contra hq
    exact absurd (hrounds.lt_tooLarge (hs.proper (by omega))) (not_lt.mpr h)
  rw [scientific_eq hn hs hrounds, ofParts_of_large .positive hs hq]

/-- **A decimal is read as the number nearest to it**, and as no other. -/
theorem nearest_iff {x : Float} : Nearest (n * 10 ^ e) x ↔ x = scientific n e := by
  have hread {x : Float} (h : Nearest (n * 10 ^ e) x) : x = scientific n e := by
    cases h with
    | zero tiny => exact (scientific_of_tiny tiny).symm
    | @finite m q hp rounds =>
      have hpos := (two_zpow_pos _).trans (rounds.half_least_lt hp.shaped)
      have hn : 0 < n := by
        refine Nat.pos_of_ne_zero ?_
        rintro rfl
        simp at hpos
      exact (scientific_eq hn hp.shaped rounds).symm
    | infinity large => exact (scientific_of_tooLarge large).symm
  constructor
  · exact hread
  · rintro rfl
    obtain ⟨y, hy⟩ := exists_nearest (n * 10 ^ e)
    exact hread hy ▸ hy

end

/-! ## What a numeral says -/

/-- `x` is the number that is written behind the sign. -/
def Magnitude.Says : Magnitude → Float → Prop
  | .infinity, x => x = Binary64.infinity .positive
  | .decimal whole fraction exponent, x => Nearest (decimal whole fraction exponent).toRat x

/-- `x` is the number that a numeral says. -/
def Says (n : Numeral) (x : Float) : Prop :=
  ∃ y, n.magnitude.Says y ∧
    x = match n.sign with
      | some .negative => -y
      | some .positive | none => y

theorem Magnitude.says_iff {mag : Magnitude} {x : Float} : mag.Says x ↔ x = mag.value := by
  cases mag with
  | infinity => exact Iff.rfl
  | decimal whole fraction exponent => exact nearest_iff

/-- **What a numeral says is its value.** -/
theorem says_iff {n : Numeral} {x : Float} : n.Says x ↔ x = n.value := by
  simp only [Says, Magnitude.says_iff, exists_eq_left]
  rfl

theorem Magnitude.value_ne_notANumber (mag : Magnitude) : mag.value ≠ notANumber := by
  have hsays := Magnitude.says_iff.mpr (Eq.refl mag.value)
  cases mag with
  | infinity =>
    intro hvalue
    have hparts := congrArg parts hvalue
    rw [show Magnitude.infinity.value = Binary64.infinity .positive from rfl, parts_infinity,
      parts_notANumber] at hparts
    cases hparts
  | decimal whole fraction exponent => exact hsays.ne_notANumber

/-- The value of a numeral is not NaN. -/
theorem value_ne_notANumber (n : Numeral) : n.value ≠ notANumber := by
  have hmagnitude := n.magnitude.value_ne_notANumber
  unfold value
  split
  · exact neg_ne_notANumber hmagnitude
  · exact hmagnitude
  · exact hmagnitude

end DeskCalculator.Numeral
