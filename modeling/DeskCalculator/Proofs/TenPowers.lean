import DeskCalculator.Binary64.TenPower
import DeskCalculator.Proofs.RoundedProducts

/-!
# DeskCalculator.Proofs.TenPowers — how near the powers of ten come by repeated squaring

Every product of the squaring is rounded, and when the base is squared its roundings count twice.
All the same a power of ten has gathered no more roundings than its exponent says, since the base
has one less than its own exponent from the start.  So few of them make no difference at the end of
the range: the 308th power is a number, and from the 309th on the power is the infinity.

* `squaring_approximates`: the loop, from each power that it comes to.
* `exists_tenPower`, `tenPower_of_large`: the powers with a positive exponent.
* `exists_tenPower_neg`, `tenPower_neg_of_large`: their reciprocals, which end with zero.
-/

namespace DeskCalculator.Binary64

/-! ## The loop -/

/-- `x` is as near to `v` as `k` roundings leave it; it may be the infinity if so many roundings can
lead from `v` to what is too large. -/
inductive Approximates (k : Nat) (v : ℚ) : Float → Prop
  | number {x : Float} {w : ℚ} (hx : Denotes x w) (hone : 1 ≤ w) (near : Within k w v) :
    Approximates k v x
  | infinity (large : tooLarge ≤ v * grain ^ k) : Approximates k v (infinity .positive)

namespace Approximates

variable {j k : Nat} {a b : ℚ} {x y : Float}

theorem mul_infinity (hx : Approximates j a x) :
    x * Binary64.infinity .positive = Binary64.infinity .positive := by
  cases hx with
  | number hx hone near =>
    obtain ⟨m, q, hp, hparts, -⟩ := hx
    show ofParts (Float.Model.UnpackedFloat.mul .binary64 (parts x) (parts _)) = _
    rw [hparts, parts_infinity]
    rfl
  | infinity large => decide +kernel

theorem infinity_mul (hy : Approximates k b y) :
    Binary64.infinity .positive * y = Binary64.infinity .positive := by
  cases hy with
  | number hy hone near =>
    obtain ⟨m, q, hp, hparts, -⟩ := hy
    show ofParts (Float.Model.UnpackedFloat.mul .binary64 (parts _) (parts y)) = _
    rw [hparts, parts_infinity]
    rfl
  | infinity large => decide +kernel

/-- What can be too large can be so with a further factor and further roundings. -/
theorem mul_grain_le (ha : 1 ≤ a) (hb : 1 ≤ b) (hjk : j ≤ k) :
    a * grain ^ j ≤ a * b * grain ^ k := by
  have hgrain : grain ^ j ≤ grain ^ k := pow_le_pow_right₀ one_le_grain hjk
  have hpos := grain_pow_pos j
  have hfactor : a ≤ a * b := le_mul_of_one_le_right (by linarith) hb
  gcongr

/-- The roundings of a product are those of its factors and one more. -/
theorem mul (hx : Approximates j a x) (hy : Approximates k b y) (ha : 1 ≤ a) (hb : 1 ≤ b) :
    Approximates (j + k + 1) (a * b) (x * y) := by
  cases hx with
  | infinity large =>
    rw [hy.infinity_mul]
    exact .infinity (large.trans (mul_grain_le ha hb (by omega)))
  | @number _ v hx hone near =>
    cases hy with
    | infinity large =>
      rw [mul_infinity (.number hx hone near), mul_comm a b]
      exact .infinity (large.trans (mul_grain_le hb ha (by omega)))
    | @number _ w hy hone' near' =>
      have hproduct := near.mul near' (by linarith) (by linarith)
      have hexact : 1 ≤ v * w := one_le_mul_of_one_le_of_one_le hone hone'
      have hlow : (2 : ℚ) ^ (-1075 : Int) < v * w := by
        linarith [three_mul_half_least_lt, least_normal_le, two_zpow_pos (-1075)]
      have hnearest := hx.mul_nearest hy (by linarith [least_normal_le]) hlow
      rcases lt_or_ge (v * w) tooLarge with hsmall | hlarge
      · obtain ⟨u, hu, hround⟩ := hnearest.roundedTo ⟨hlow, hsmall⟩
        have hnear := (hround.within_of_one_le hexact).trans hproduct
        rw [Nat.add_comm 1] at hnear
        exact .number hu (roundedTo_one.mono hround hexact) hnear
      · rw [hnearest.eq_infinity hlarge]
        refine .infinity (hlarge.trans (hproduct.high.trans ?_))
        have hab : 1 ≤ a * b := one_le_mul_of_one_le_of_one_le ha hb
        simpa using mul_grain_le hab le_rfl (Nat.le_succ (j + k))

end Approximates

/-- **The loop.**  The base is a power of ten with one rounding less than its exponent, and the
product is one with no more roundings than its exponent; both stay so. -/
theorem squaring_approximates {bits n j k : Nat} {b r : Float} (hn : n < 2 ^ bits)
    (hb : Approximates k (10 ^ (k + 1)) b) (hr : Approximates j (10 ^ j) r) :
    Approximates (j + n * (k + 1)) (10 ^ (j + n * (k + 1))) (squaring bits n b r) := by
  induction bits generalizing n j k b r with
  | zero =>
    obtain rfl : n = 0 := by simpa using hn
    simpa [squaring] using hr
  | succ bits ih =>
    have hten (e : Nat) : (1 : ℚ) ≤ 10 ^ e := one_le_pow₀ (by norm_num)
    have hproduct : Approximates (j + n % 2 * (k + 1)) (10 ^ (j + n % 2 * (k + 1)))
        (if n % 2 = 1 then r * b else r) := by
      split
      · next hodd =>
        have hmul := hr.mul hb (hten _) (hten _)
        rw [← pow_add, Nat.add_assoc] at hmul
        rwa [hodd, Nat.one_mul]
      · next heven =>
        rw [show n % 2 = 0 by omega, Nat.zero_mul]
        exact hr
    have hhalves : n = n % 2 + n / 2 * 2 := by omega
    rw [squaring]
    generalize (if n % 2 = 1 then r * b else r) = r' at hproduct ⊢
    split
    · next hlast =>
      rw [hlast, Nat.zero_mul, Nat.add_zero] at hhalves
      rwa [← hhalves] at hproduct
    · have hsquare : Approximates (2 * k + 1) (10 ^ (2 * k + 1 + 1)) (b * b) := by
        have hmul := hb.mul hb (hten _) (hten _)
        rwa [← pow_add, show k + k + 1 = 2 * k + 1 by omega,
          show k + 1 + (k + 1) = 2 * k + 1 + 1 by omega] at hmul
      have hexponent : j + n % 2 * (k + 1) + n / 2 * (2 * k + 1 + 1) = j + n * (k + 1) := by
        conv_rhs => rw [hhalves]
        ring
      have hrest := ih (n := n / 2) (by omega) hsquare hproduct
      rwa [hexponent] at hrest

/-! ## Positive exponents -/

theorem denotes_ten : Denotes 10 10 := by
  have hten : (10 : Float) = nearest .positive 10 0 := by decide +kernel
  simpa [hten] using denotes_natural (n := 10) (by norm_num) (by norm_num)

theorem tenPower_natCast (n : Nat) : tenPower n = squaring (n.log2 + 1) n 10 1 := by
  unfold tenPower
  rw [Int.natAbs_natCast, if_neg (by omega)]

/-- A power of ten has no more roundings than its exponent says. -/
theorem approximates_tenPower (n : Nat) : Approximates n (10 ^ n) (tenPower n) := by
  have hbase : Approximates 0 (10 ^ (0 + 1)) 10 :=
    .number denotes_ten (by norm_num) ⟨by norm_num, by norm_num⟩
  have hone : Approximates 0 (10 ^ 0) 1 :=
    .number denotes_one le_rfl ⟨by norm_num, by norm_num⟩
  have hpower := squaring_approximates (n := n) Nat.lt_log2_self hbase hone
  rw [tenPower_natCast]
  simpa using hpower

/-- The roundings of the powers within the range make no more than one part in `10 ^ 13`. -/
theorem grain_pow_le_near_one {k : Nat} (hk : k ≤ 320) : grain ^ k ≤ 1 + 1 / 10 ^ 13 := by
  have hgrain : grain ≤ 1 + 1 / (8 * 10 ^ 15) := by norm_num [grain, roundoff]
  have hhalf : grain ^ 160 ≤ 1 + 1 / (4 * 10 ^ 13) :=
    calc grain ^ 160 ≤ (1 + 1 / (8 * 10 ^ 15)) ^ 160 :=
          pow_le_pow_left₀ (zero_le_one.trans one_le_grain) hgrain 160
      _ ≤ 1 + 1 / (4 * 10 ^ 13) := by norm_num
  calc grain ^ k ≤ grain ^ (160 * 2) := pow_le_pow_right₀ one_le_grain hk
    _ = (grain ^ 160) ^ 2 := pow_mul _ _ _
    _ ≤ (1 + 1 / (4 * 10 ^ 13)) ^ 2 := pow_le_pow_left₀ (grain_pow_pos 160).le hhalf 2
    _ ≤ 1 + 1 / 10 ^ 13 := by norm_num

theorem seventeen_tenths_lt_tooLarge : 17 * (10 : ℚ) ^ 308 < 10 * tooLarge := by
  have hnat : 17 * 10 ^ 308 < 180143985094819830 * 2 ^ 970 := by decide +kernel
  have hrat := mul_pow_lt hnat
  have hfirst : (10 : ℚ) * (2 ^ 54 - 1) = 180143985094819830 := by norm_num
  rwa [Nat.cast_ofNat, Nat.cast_ofNat, Nat.cast_ofNat, Nat.cast_ofNat, ← hfirst, mul_assoc] at hrat

theorem tooLarge_lt_nine_fifths : 5 * tooLarge < 9 * (10 : ℚ) ^ 308 := by
  have hnat : 90071992547409915 * 2 ^ 970 < 9 * 10 ^ 308 := by decide +kernel
  have hrat := mul_pow_lt hnat
  have hfirst : (5 : ℚ) * (2 ^ 54 - 1) = 90071992547409915 := by norm_num
  rwa [Nat.cast_ofNat, Nat.cast_ofNat, Nat.cast_ofNat, Nat.cast_ofNat, ← hfirst, mul_assoc] at hrat

theorem Denotes.lt_tooLarge {x : Float} {a : ℚ} (h : Denotes x a) : a < tooLarge := by
  obtain ⟨m, q, hp, -, rfl⟩ := h
  exact (Rounds.self m q).lt_tooLarge hp

variable {n : Nat}

/-- Up to the 308th a power of ten is a number. -/
theorem exists_tenPower (hn : n ≤ 308) :
    ∃ w, Denotes (tenPower n) w ∧ 1 ≤ w ∧ Within n w (10 ^ n) := by
  have hpower := approximates_tenPower n
  generalize tenPower n = x at hpower
  cases hpower with
  | number hx hone near => exact ⟨_, hx, hone, near⟩
  | infinity large =>
    have hgrain := grain_pow_le_near_one (k := n) (by omega)
    have hten : (10 : ℚ) ^ n ≤ 10 ^ 308 := pow_le_pow_right₀ (by norm_num) hn
    have hlarge : (10 : ℚ) ^ n * grain ^ n ≤ 10 ^ 308 * (1 + 1 / 10 ^ 13) := by
      have hpos := grain_pow_pos n
      gcongr
    have htop := seventeen_tenths_lt_tooLarge
    generalize (10 : ℚ) ^ 308 = ten at hten hlarge htop
    have hpos : (0 : ℚ) < 10 ^ n := by positivity
    linarith

/-- From the 309th on a power of ten is the infinity. -/
theorem tenPower_of_large (hn : 309 ≤ n) : tenPower n = infinity .positive := by
  have hpower := approximates_tenPower n
  generalize tenPower n = x at hpower ⊢
  cases hpower with
  | infinity large => rfl
  | @number _ w hx hone near =>
    obtain ⟨d, rfl⟩ := Nat.exists_eq_add_of_le hn
    have hgrain : grain ^ d ≤ 10 ^ d :=
      pow_le_pow_left₀ (zero_le_one.trans one_le_grain) (by norm_num [grain, roundoff]) d
    have hroundings := grain_pow_le_near_one (k := 309) (by norm_num)
    have hw := hx.lt_tooLarge
    have hpos := grain_pow_pos 309
    have hpos' := grain_pow_pos d
    have hlarge : 0 ≤ tooLarge := by linarith
    have hlow : (10 : ℚ) ^ 309 * 10 ^ d ≤ tooLarge * (1 + 1 / 10 ^ 13) * 10 ^ d :=
      calc (10 : ℚ) ^ 309 * 10 ^ d = 10 ^ (309 + d) := (pow_add _ _ _).symm
        _ ≤ w * grain ^ (309 + d) := near.low
        _ = w * grain ^ 309 * grain ^ d := by rw [pow_add, mul_assoc]
        _ ≤ tooLarge * (1 + 1 / 10 ^ 13) * 10 ^ d := by gcongr
    have hten := le_of_mul_le_mul_right hlow (by positivity)
    have htop := tooLarge_lt_nine_fifths
    rw [show (309 : Nat) = 308 + 1 from rfl, pow_succ] at hten
    generalize (10 : ℚ) ^ 308 = ten at hten htop
    linarith

/-! ## Negative exponents -/

theorem tenPower_neg (hpos : 0 < n) : tenPower (-n) = 1 / tenPower n := by
  rw [tenPower_natCast]
  unfold tenPower
  rw [Int.natAbs_neg, Int.natAbs_natCast, if_pos (by omega)]

/-- The reciprocal of a power that is a number is a number too, though it may be subnormal. -/
theorem exists_tenPower_neg (hpos : 0 < n) (hn : n ≤ 308) :
    ∃ w, Denotes (tenPower (-n)) w ∧ w ≤ 1 ∧ Within (n + 3) w (1 / 10 ^ n) := by
  obtain ⟨t, ht, hone, hnear⟩ := exists_tenPower hn
  have hten : (0 : ℚ) < 10 ^ n := by positivity
  have hreciprocal : Within n (1 / t) (1 / 10 ^ n) := by
    rw [one_div, one_div]
    exact hnear.inv hten
  have hunit : 1 / t ≤ 1 := div_le_one_of_le₀ hone (by linarith)
  have hlow : (2 : ℚ) ^ (-1022 : Int) ≤ (3 : Nat) * (1 / t) := by
    have hgrain := grain_pow_le_near_one (k := n) (by omega)
    have hleast : 1 / (10 : ℚ) ^ 308 ≤ 1 / 10 ^ n := by
      have hpow : (10 : ℚ) ^ n ≤ 10 ^ 308 := pow_le_pow_right₀ (by norm_num) hn
      gcongr
    have hsize : 1 / (10 : ℚ) ^ n ≤ 1 / t * (1 + 1 / 10 ^ 13) :=
      hreciprocal.low.trans (by gcongr)
    have hnormal := least_normal_lt_ten
    have hpositive : 0 < 1 / t := by positivity
    rw [Nat.cast_ofNat]
    generalize 1 / (10 : ℚ) ^ 308 = least at hleast hnormal
    linarith
  have hrange : InRange (1 / t) := by
    rw [Nat.cast_ofNat] at hlow
    refine ⟨by linarith [three_mul_half_least_lt], hunit.trans_lt ?_⟩
    exact (one_le_pow₀ (by norm_num)).trans_lt ten_pow_lt_tooLarge
  obtain ⟨w, hw, hround⟩ := denotes_one.div ht hrange
  refine ⟨w, tenPower_neg hpos ▸ hw, hround.mono roundedTo_one hunit, ?_⟩
  have hrounded := (hround.within (by norm_num) (by norm_num) hlow).trans hreciprocal
  rwa [Nat.add_comm 3] at hrounded

/-- The reciprocal of the infinity is zero. -/
theorem tenPower_neg_of_large (hn : 309 ≤ n) : tenPower (-n) = zero .positive := by
  rw [tenPower_neg (by omega), tenPower_of_large hn]
  decide +kernel

/-! ## The exponent that a precision is read as -/

section

variable {p : UInt32}

theorem toInt_of_lt (h : p.toNat < 2 ^ 31) : p.toInt32.toInt = p.toNat := by
  have hsigned : p.toInt32.toInt = p.toBitVec.toInt := rfl
  have hunsigned : p.toBitVec.toNat = p.toNat := rfl
  rw [hsigned, BitVec.toInt_eq_toNat_of_lt (by omega), hunsigned]

/-- A word with its first bit set is negative. -/
theorem toInt_of_add_eq {k : Nat} (h : p.toNat + k = 2 ^ 32) (hk : k ≤ 2 ^ 31) :
    p.toInt32.toInt = -(k : Int) := by
  have hsigned : p.toInt32.toInt = p.toBitVec.toInt := rfl
  have hunsigned : p.toBitVec.toNat = p.toNat := rfl
  rw [hsigned, BitVec.toInt_eq_toNat_cond, if_neg (by omega), hunsigned]
  omega

end

end DeskCalculator.Binary64
