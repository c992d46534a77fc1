import DeskCalculator.Json.Number
import DeskCalculator.Proofs.Domains
import DeskCalculator.Proofs.Nearness

/-!
# DeskCalculator.Proofs.Scaling — how near a scaled number is to what it stands for

The numbers of JSON are scaled by a power of ten that is rounded itself.  `Denotes x v` says that
`x` is the positive number `v`; a product or a quotient of such numbers is again one, as long as it
lies within the range.

* `scales_of_digits`: scaling comes out finite, and near to the decimal that is meant.
-/

namespace DeskCalculator.Binary64

/-- `x` is the positive number `v`. -/
def Denotes (x : Float) (v : ℚ) : Prop :=
  ∃ m q, ∃ hp : Proper m q, parts x = .finite .positive m q hp.pos ∧ v = m * 2 ^ q

section

variable {x y : Float} {a b : ℚ}

theorem denotes_ofParts {m : Nat} {q : Int} (hp : Proper m q) :
    Denotes (ofParts (.finite .positive m q hp.pos)) (m * 2 ^ q) :=
  ⟨m, q, hp, parts_ofParts (.finite .positive hp), rfl⟩

/-- The significand of a number that is not subnormal is long. -/
theorem Denotes.long (h : Denotes x a) (hnormal : 2 ^ (-1022 : Int) ≤ a) :
    ∃ m q, ∃ hp : Proper m q, parts x = .finite .positive m q hp.pos ∧ a = m * 2 ^ q ∧
      2 ^ 52 ≤ m := by
  obtain ⟨m, q, hp, hparts, rfl⟩ := h
  refine ⟨m, q, hp, hparts, rfl, ?_⟩
  rcases hp.least.lt_or_eq with hq | rfl
  · exact hp.normal hq
  · have hsplit : (2 : ℚ) ^ (-1022 : Int) = 2 ^ 52 * 2 ^ (-1074 : Int) := by
      rw [← zpow_natCast, ← zpow_add₀ (by norm_num)]
      rfl
    rw [hsplit] at hnormal
    exact_mod_cast le_of_mul_le_mul_right hnormal (two_zpow_pos _)

theorem Denotes.add (hx : Denotes x a) (hy : Denotes y b) (hrange : InRange (a + b)) :
    ∃ v, Denotes (x + y) v ∧ RoundedTo (a + b) v := by
  obtain ⟨m, q, hp, hrounds⟩ := exists_rounds hrange
  obtain ⟨m₁, q₁, hp₁, hparts₁, rfl⟩ := hx
  obtain ⟨m₂, q₂, hp₂, hparts₂, rfl⟩ := hy
  refine ⟨m * 2 ^ q, ?_, m, q, hp, hrounds, rfl⟩
  have hsum : x + y = ofParts (Float.Model.UnpackedFloat.add .binary64 (parts x) (parts y)) := rfl
  rw [hsum, hparts₁, hparts₂, add_eq hp.shaped hrounds]
  exact denotes_ofParts hp

theorem Denotes.mul (hx : Denotes x a) (hy : Denotes y b) (hnormal : 2 ^ (-1022 : Int) ≤ a)
    (hrange : InRange (a * b)) : ∃ v, Denotes (x * y) v ∧ RoundedTo (a * b) v := by
  obtain ⟨m, q, hp, hrounds⟩ := exists_rounds hrange
  obtain ⟨m₁, q₁, hp₁, hparts₁, rfl, hlong⟩ := hx.long hnormal
  obtain ⟨m₂, q₂, hp₂, hparts₂, rfl⟩ := hy
  refine ⟨m * 2 ^ q, ?_, m, q, hp, hrounds, rfl⟩
  rw [mul_parts hparts₁ hparts₂ hp.shaped hrounds hlong]
  exact denotes_ofParts hp

theorem Denotes.div (hx : Denotes x a) (hy : Denotes y b) (hrange : InRange (a / b)) :
    ∃ v, Denotes (x / y) v ∧ RoundedTo (a / b) v := by
  obtain ⟨m, q, hp, hrounds⟩ := exists_rounds hrange
  obtain ⟨m₁, q₁, hp₁, hparts₁, rfl⟩ := hx
  obtain ⟨m₂, q₂, hp₂, hparts₂, rfl⟩ := hy
  refine ⟨m * 2 ^ q, ?_, m, q, hp, hrounds, rfl⟩
  rw [div_parts hparts₁ hparts₂ hp.shaped hrounds]
  exact denotes_ofParts hp

theorem denotes_scientific {n : Nat} {e : Int} (hn : 0 < n) (hrange : InRange (n * 10 ^ e)) :
    ∃ v, Denotes (Numeral.scientific n e) v ∧ RoundedTo (n * 10 ^ e) v := by
  obtain ⟨m, q, hp, hrounds⟩ := exists_rounds hrange
  refine ⟨m * 2 ^ q, ?_, m, q, hp, hrounds, rfl⟩
  rw [Numeral.scientific_eq hn hp.shaped hrounds]
  exact denotes_ofParts hp

theorem Denotes.isInf (h : Denotes x a) : x.isInf = false := by
  obtain ⟨m, q, hp, hparts, -⟩ := h
  show (parts x).isInf = false
  rw [hparts]
  rfl

theorem Denotes.ne_zero (h : Denotes x a) : (x == 0) = false := by
  obtain ⟨m, q, hp, hparts, -⟩ := h
  rw [Bool.eq_false_iff]
  intro hzero
  obtain ⟨s, rfl⟩ := beq_zero_iff.mp hzero
  rw [parts_zero] at hparts
  cases hparts

end

/-! ## The ends of the range -/

theorem least_normal_le : (2 : ℚ) ^ (-1022 : Int) ≤ 1 / 2 := by
  have hhalf : (2 : ℚ) ^ (-1022 : Int) ≤ 2 ^ (-1 : Int) :=
    zpow_le_zpow_right₀ (by norm_num) (by norm_num)
  rwa [zpow_neg_one, ← one_div] at hhalf

theorem three_mul_half_least_lt : 3 * (2 : ℚ) ^ (-1075 : Int) < 2 ^ (-1022 : Int) := by
  have hsplit : (2 : ℚ) ^ (-1073 : Int) = 4 * 2 ^ (-1075 : Int) := by
    rw [show (-1073 : Int) = 2 + -1075 by norm_num, zpow_add₀ (by norm_num)]
    norm_num
  have hle : (2 : ℚ) ^ (-1073 : Int) ≤ 2 ^ (-1022 : Int) :=
    zpow_le_zpow_right₀ (by norm_num) (by norm_num)
  linarith [two_zpow_pos (-1075)]

/-- Multiples of powers can be compared as natural numbers. -/
theorem mul_pow_lt {a b c d m n : Nat} (h : a * b ^ m < c * d ^ n) :
    (a : ℚ) * (b : ℚ) ^ m < c * (d : ℚ) ^ n := by
  exact_mod_cast h

theorem least_normal_lt_ten : (2 : ℚ) ^ (-1022 : Int) < 5 / 2 * (1 / 10 ^ 308) := by
  have hnat : 2 * 10 ^ 308 < 5 * 2 ^ 1022 := by decide +kernel
  have hrat := mul_pow_lt hnat
  rw [Nat.cast_ofNat, Nat.cast_ofNat, Nat.cast_ofNat] at hrat
  rw [zpow_neg, zpow_ofNat, mul_one_div, lt_div_iff₀ (by positivity),
    inv_mul_lt_iff₀ (by positivity)]
  generalize (10 : ℚ) ^ 308 = ten at hrat ⊢
  generalize (2 : ℚ) ^ 1022 = two at hrat ⊢
  linarith

theorem ten_pow_lt_three_halves : (10 : ℚ) ^ (-324 : Int) < 3 * 2 ^ (-1075 : Int) := by
  have hnat : 1 * 2 ^ 1075 < 3 * 10 ^ 324 := by decide +kernel
  have hrat := mul_pow_lt hnat
  rw [Nat.cast_one, one_mul, Nat.cast_ofNat, Nat.cast_ofNat, Nat.cast_ofNat] at hrat
  rw [zpow_neg, zpow_neg, zpow_ofNat, zpow_ofNat, ← div_eq_mul_inv,
    inv_lt_iff_one_lt_mul₀ (by positivity), div_mul_eq_mul_div, one_lt_div (by positivity)]
  exact hrat

theorem ten_pow_lt_tooLarge : (10 : ℚ) ^ 308 < tooLarge := by
  have hnat : 1 * 10 ^ 308 < 18014398509481983 * 2 ^ 970 := by decide +kernel
  have hrat := mul_pow_lt hnat
  have hfirst : (2 : ℚ) ^ 54 - 1 = 18014398509481983 := by norm_num
  rwa [Nat.cast_one, one_mul, Nat.cast_ofNat, Nat.cast_ofNat, Nat.cast_ofNat, ← hfirst] at hrat

theorem tooLarge_lt_ten_pow : tooLarge < 10 ^ 309 := by
  have hnat : 18014398509481983 * 2 ^ 970 < 1 * 10 ^ 309 := by decide +kernel
  have hrat := mul_pow_lt hnat
  have hfirst : (2 : ℚ) ^ 54 - 1 = 18014398509481983 := by norm_num
  rwa [Nat.cast_one, one_mul, Nat.cast_ofNat, Nat.cast_ofNat, Nat.cast_ofNat, ← hfirst] at hrat

/-- The rationals that some roundings do not lead out of the range. -/
structure Inner (r : ℚ) : Prop where
  low : 3 * 2 ^ (-1075 : Int) ≤ r
  high : r ≤ (2 ^ 54 - 7) * 2 ^ 970

namespace Inner

variable {r : ℚ}

theorem pos (h : Inner r) : 0 < r := by
  have hlow := h.low
  linarith [two_zpow_pos (-1075)]

theorem lt_tooLarge (h : Inner r) : r < tooLarge := by
  refine h.high.trans_lt ?_
  rw [tooLarge]
  exact mul_lt_mul_of_pos_right (by norm_num) (by positivity)

end Inner

theorem inRange_of_one_le {r : ℚ} (hlow : 1 ≤ r) (hhigh : r ≤ 10 ^ 308) : InRange r := by
  have hleast := two_zpow_pos (-1075)
  exact ⟨by linarith [three_mul_half_least_lt, least_normal_le], hhigh.trans_lt ten_pow_lt_tooLarge⟩

theorem RoundedTo.within_of_one_le {r v : ℚ} (h : RoundedTo r v) (hr : 1 ≤ r) : Within 1 v r := by
  refine h.within le_rfl (by norm_num) ?_
  rw [Nat.cast_one, one_mul]
  linarith [least_normal_le]

theorem denotes_ofNat {n : Nat} (hn : 0 < n) (hword : n < 2 ^ 64) :
    ∃ v, Denotes n.toUInt64.toFloat v ∧ Within 1 v n := by
  have hone : (1 : ℚ) ≤ n := by exact_mod_cast hn
  have hhigh : (n : ℚ) ≤ 10 ^ 308 :=
    calc (n : ℚ) ≤ 2 ^ 64 := by exact_mod_cast hword.le
      _ ≤ 10 ^ 20 := by norm_num
      _ ≤ 10 ^ 308 := pow_le_pow_right₀ (by norm_num) (by norm_num)
  obtain ⟨m, q, hp, hrounds⟩ := exists_rounds (inRange_of_one_le hone hhigh)
  have hround : RoundedTo n (m * 2 ^ q) := ⟨m, q, hp, hrounds, rfl⟩
  refine ⟨m * 2 ^ q, ?_, hround.within_of_one_le hone⟩
  have hscale : Rounds m q (n * 2 ^ (0 : Int)) := by simpa using hrounds
  rw [toFloat_toUInt64 hn hword, nearest_eq, round_eq hp.shaped hscale hn.ne']
  exact denotes_ofParts hp

end DeskCalculator.Binary64

namespace DeskCalculator.Json

open Binary64

/-! ## Scaling -/

/-- The table of the powers of ten. -/
theorem denotes_tableTen {k : Nat} (hk : k ≤ 308) :
    ∃ t, Denotes (tableTen k) t ∧ Within 1 t (10 ^ k) := by
  have hone : (1 : ℚ) ≤ 10 ^ k := one_le_pow₀ (by norm_num)
  have hhigh : (10 : ℚ) ^ k ≤ 10 ^ 308 := pow_le_pow_right₀ (by norm_num) hk
  have hvalue : ((1 : Nat) : ℚ) * 10 ^ (k : Int) = 10 ^ k := by
    rw [Nat.cast_one, one_mul, zpow_natCast]
  have hrange : InRange (((1 : Nat) : ℚ) * 10 ^ (k : Int)) := by
    rw [hvalue]
    exact inRange_of_one_le hone hhigh
  obtain ⟨t, ht, hround⟩ := denotes_scientific one_pos hrange
  rw [hvalue] at hround
  exact ⟨t, ht, hround.within_of_one_le hone⟩

section

variable (steps : Nat) {x : Float} {e : Int} {a r v : ℚ} {j k : Nat}

/-- Scaling up by a power in the table. -/
theorem scaleByTen_up (he : 0 ≤ e) (he' : e ≤ 308) (h : (x * tableTen e.natAbs).isInf = false) :
    scaleByTen steps x e = some (x * tableTen e.natAbs) := by
  unfold scaleByTen
  simp [show e.natAbs ≤ 308 by omega, he, h]

/-- Scaling down by a power in the table. -/
theorem scaleByTen_down (he : -308 ≤ e) (he' : e < 0) :
    scaleByTen steps x e = some (x / tableTen e.natAbs) := by
  unfold scaleByTen
  simp [show e.natAbs ≤ 308 by omega, show ¬ 0 ≤ e by omega]

/-- Scaling down by more than the table has. -/
theorem scaleByTen_far (he : e < -308) (hx : (x == 0) = false) :
    scaleByTen (steps + 1) x e = scaleByTen steps (x / tableTen 308) (e + 308) := by
  rw [scaleByTen]
  simp [show ¬ e.natAbs ≤ 308 by omega, show ¬ 0 ≤ e by omega, hx]

/-- `x` scaled is a number that `p` is rounded to, where `p` is near to `r`. -/
def Scales (x : Float) (e : Int) (k : Nat) (r : ℚ) : Prop :=
  ∃ y w p, scaleByTen steps x e = some y ∧ Denotes y w ∧ RoundedTo p w ∧ Within k p r

variable {steps} in
theorem Scales.mono (h : Scales steps x e j r) (hjk : j ≤ k) (hr : 0 < r) :
    Scales steps x e k r := by
  obtain ⟨y, w, p, hy, hw, hp, hnear⟩ := h
  exact ⟨y, w, p, hy, hw, hp, hnear.mono hjk hr⟩

theorem scales_up (hx : Denotes x a) (h : Within 1 a v) (hv : 1 ≤ v) (he : 0 ≤ e) (he' : e ≤ 308)
    (hinner : Inner (v * 10 ^ e)) : Scales steps x e 2 (v * 10 ^ e) := by
  obtain ⟨t, ht, hnear⟩ := denotes_tableTen (k := e.natAbs) (by omega)
  have hten : (10 : ℚ) ^ e = 10 ^ e.natAbs := zpow_eq_pow (by omega) 10
  have hone : (1 : ℚ) ≤ 10 ^ e := hten ▸ one_le_pow₀ (by norm_num)
  rw [← hten] at hnear
  have hproduct : Within 2 (a * t) (v * 10 ^ e) := h.mul hnear (by linarith) (by linarith)
  have hnormal : 2 ^ (-1022 : Int) ≤ a := by
    have ha := (h.about (by norm_num) (by linarith)).1
    linarith [least_normal_le]
  have hrange : InRange (a * t) := by
    refine ⟨?_, hproduct.high.trans_lt ?_⟩
    · have hlow := (hproduct.about (by norm_num) hinner.pos).1
      linarith [hinner.low, two_zpow_pos (-1075)]
    · have hgrain : ((2 : ℚ) ^ 54 - 7) * grain ^ 2 < 2 ^ 54 - 1 := by norm_num [grain, roundoff]
      calc v * 10 ^ e * grain ^ 2 ≤ (2 ^ 54 - 7) * 2 ^ 970 * grain ^ 2 :=
            mul_le_mul_of_nonneg_right hinner.high (grain_pow_pos 2).le
        _ = (2 ^ 54 - 7) * grain ^ 2 * 2 ^ 970 := mul_right_comm _ _ _
        _ < tooLarge := mul_lt_mul_of_pos_right hgrain (by positivity)
  obtain ⟨w, hw, hround⟩ := hx.mul ht hnormal hrange
  exact ⟨_, w, a * t, scaleByTen_up steps he he' hw.isInf, hw, hround, hproduct⟩

theorem scales_down (hx : Denotes x a) (h : Within j a v) (hj : j < 10) (hv : 0 < v)
    (hv' : v ≤ 10 ^ 308) (he : -308 ≤ e) (he' : e < 0) (hinner : Inner (v * 10 ^ e)) :
    Scales steps x e (j + 1) (v * 10 ^ e) := by
  obtain ⟨t, ht, hnear⟩ := denotes_tableTen (k := e.natAbs) (by omega)
  have hten : (10 : ℚ) ^ e = (10 ^ e.natAbs)⁻¹ := zpow_eq_inv_pow (by omega) 10
  have hquotient : Within (j + 1) (a / t) (v * 10 ^ e) := by
    rw [hten, ← div_eq_mul_inv]
    exact h.div hnear hv (by positivity)
  obtain ⟨hlow, hhigh⟩ := hquotient.about hj hinner.pos
  have hrange : InRange (a / t) := by
    refine ⟨by linarith [hinner.low, two_zpow_pos (-1075)],
      lt_of_le_of_lt ?_ ten_pow_lt_tooLarge⟩
    have htenth : (10 : ℚ) ^ e ≤ 10 ^ (-1 : Int) := zpow_le_zpow_right₀ (by norm_num) (by omega)
    calc a / t ≤ 1001 / 1000 * (v * 10 ^ e) := hhigh
      _ ≤ 1001 / 1000 * (v * 10 ^ (-1 : Int)) := by gcongr
      _ ≤ v := by
          rw [zpow_neg_one]
          linarith
      _ ≤ 10 ^ 308 := hv'
  obtain ⟨w, hw, hround⟩ := hx.div ht hrange
  exact ⟨_, w, a / t, scaleByTen_down steps he he', hw, hround, hquotient⟩

/-- What is divided first may come to lie just below the first normal number, where its rounding
counts for three. -/
theorem scales_far (hx : Denotes x a) (h : Within 1 a v) (hv : 1 ≤ v) (hv' : v ≤ 10 ^ 308)
    (he : -616 ≤ e) (he' : e < -308) (hinner : Inner (v * 10 ^ e)) :
    Scales (steps + 1) x e 6 (v * 10 ^ e) := by
  obtain ⟨t, ht, hnear⟩ := denotes_tableTen (k := 308) le_rfl
  have hquotient : Within 2 (a / t) (v / 10 ^ 308) := h.div hnear (by linarith) (by positivity)
  have hsmall : 0 < v / 10 ^ 308 := by positivity
  have hleast : 1 / 10 ^ 308 ≤ v / 10 ^ 308 := by gcongr
  have hunit : v / 10 ^ 308 ≤ 1 := div_le_one_of_le₀ hv' (by positivity)
  have hrescaled : v * 10 ^ e = v / 10 ^ 308 * 10 ^ (e + 308) := by
    rw [zpow_add₀ (by norm_num), zpow_ofNat]
    field_simp
  rw [hrescaled] at hinner ⊢
  generalize v / 10 ^ 308 = u at hquotient hsmall hleast hunit hinner
  obtain ⟨hlow, hhigh⟩ := hquotient.about (by norm_num) hsmall
  have hnormal : 2 ^ (-1022 : Int) ≤ (3 : Nat) * (a / t) :=
    calc (2 : ℚ) ^ (-1022 : Int) ≤ 5 / 2 * (1 / 10 ^ 308) := least_normal_lt_ten.le
      _ ≤ 5 / 2 * u := by gcongr
      _ ≤ (3 : Nat) * (a / t) := by
          rw [Nat.cast_ofNat]
          linarith
  have hrange : InRange (a / t) := by
    rw [Nat.cast_ofNat] at hnormal
    refine ⟨by linarith [three_mul_half_least_lt], lt_of_le_of_lt ?_ ten_pow_lt_tooLarge⟩
    calc a / t ≤ 10 ^ 1 := by linarith
      _ ≤ 10 ^ 308 := pow_le_pow_right₀ (by norm_num) (by norm_num)
  obtain ⟨c, hc, hround⟩ := hx.div ht hrange
  have hfirst : Within 5 c u := (hround.within (by norm_num) (by norm_num) hnormal).trans hquotient
  obtain ⟨y, w, p, hy, hscales⟩ := scales_down steps hc hfirst (by norm_num) hsmall
    (hunit.trans (one_le_pow₀ (by norm_num))) (by omega) (by omega) hinner
  exact ⟨y, w, p, (scaleByTen_far steps he' hx.ne_zero).trans hy, hscales⟩

theorem lt_of_ten_zpow_lt {d e : Int} (h : (10 : ℚ) ^ d < 10 ^ e) : d < e :=
  (zpow_lt_zpow_iff_right₀ (by norm_num)).mp h

section

variable {n : Nat} (hn : 0 < n) (hshort : n < 10 ^ 17) (hinner : Inner (n * 10 ^ e))
include hn hshort hinner

/-- The exponents of the decimals that are neither too large nor too small. -/
theorem exponent_bounds : -341 < e ∧ e ≤ 308 := by
  have hten : (0 : ℚ) < 10 ^ e := by positivity
  have hone : (1 : ℚ) ≤ n := by exact_mod_cast hn
  have hlt : (n : ℚ) < 10 ^ 17 := by exact_mod_cast hshort
  constructor
  · refine lt_of_add_lt_add_right (a := 17) (lt_of_ten_zpow_lt ?_)
    calc (10 : ℚ) ^ (-341 + 17 : Int) < 3 * 2 ^ (-1075 : Int) := ten_pow_lt_three_halves
      _ ≤ n * 10 ^ e := hinner.low
      _ < 10 ^ 17 * 10 ^ e := mul_lt_mul_of_pos_right hlt hten
      _ = 10 ^ (e + 17) := by rw [zpow_add₀ (by norm_num), zpow_ofNat, mul_comm]
  · refine Int.lt_add_one_iff.mp (lt_of_ten_zpow_lt ?_)
    calc (10 : ℚ) ^ e ≤ n * 10 ^ e := le_mul_of_one_le_left hten.le hone
      _ < tooLarge := hinner.lt_tooLarge
      _ < 10 ^ 309 := tooLarge_lt_ten_pow
      _ = 10 ^ (308 + 1 : Int) := (zpow_ofNat _ _).symm

/-- **Scaling comes out finite, and near to the decimal that is meant.** -/
theorem scales_of_digits : Scales (steps + 1) n.toUInt64.toFloat e 6 (n * 10 ^ e) := by
  obtain ⟨hleast, hgreatest⟩ := exponent_bounds hn hshort hinner
  have hone : (1 : ℚ) ≤ n := by exact_mod_cast hn
  have hlarge : (n : ℚ) ≤ 10 ^ 308 :=
    calc (n : ℚ) ≤ 10 ^ 17 := by exact_mod_cast hshort.le
      _ ≤ 10 ^ 308 := pow_le_pow_right₀ (by norm_num) (by norm_num)
  obtain ⟨a, ha, hnear⟩ := denotes_ofNat hn (hshort.trans (by norm_num))
  rcases lt_or_ge e (-308) with hfar | he
  · exact scales_far steps ha hnear hone hlarge (by omega) hfar hinner
  rcases lt_or_ge e 0 with hdown | hup
  · have hscales := scales_down (steps + 1) ha hnear (by norm_num) (by linarith) hlarge he hdown
      hinner
    exact hscales.mono (by norm_num) hinner.pos
  · exact (scales_up (steps + 1) ha hnear hone hup hgreatest hinner).mono (by norm_num) hinner.pos

end

end

end DeskCalculator.Json
