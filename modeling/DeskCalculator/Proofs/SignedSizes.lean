import DeskCalculator.Binary64.TenPower
import DeskCalculator.Proofs.Ordering
import DeskCalculator.Proofs.Rereading

/-!
# DeskCalculator.Proofs.SignedSizes — the arithmetic of finite numbers, told from sign and size

A finite number has a sign and a size, which may be zero.  In products and quotients, and where it
is rounded to a whole number, the sign goes its own way, and what becomes of the size depends on the
size alone: it is rounded, it goes to zero, or it is too large.

* `Sized.mul_computed`, `Sized.div_computed`: products and quotients of any size.
* `Sized.roundHalfAway`: rounding to a whole number.
* `roundTo_of_scale`: rounding to decimal places, for any scale that is a number.
-/

namespace DeskCalculator.Binary64

open Float.Model.UnpackedFloat (mul div)

/-! ## Finite numbers, told from their sign and size -/

theorem abs_toRat {x : Float} {s : Sign} {m : Nat} {q : Int} {hm : 0 < m}
    (h : parts x = .finite s m q hm) : |toRat x| = m * 2 ^ q := by
  rw [toRat_of_parts h, abs_mul, abs_unit, one_mul, abs_of_nonneg (by positivity)]

theorem tooLarge_pos : 0 < tooLarge :=
  (by positivity : (0 : ℚ) < 10 ^ 308).trans ten_pow_lt_tooLarge

/-- `x` is the finite number with the sign `s` and the size `a`. -/
inductive Sized (s : Sign) : ℚ → Float → Prop
  | zero : Sized s 0 (zero s)
  | finite {m : Nat} {q : Int} {x : Float} (hp : Proper m q) (hx : parts x = .finite s m q hp.pos) :
    Sized s (m * 2 ^ q) x

namespace Sized

variable {s : Sign} {a : ℚ} {x : Float}

theorem nonneg (h : Sized s a x) : 0 ≤ a := by
  cases h with
  | zero => exact le_rfl
  | finite hp hx => positivity

theorem isFinite (h : Sized s a x) : x.isFinite = true := by
  rw [isFinite_eq]
  cases h with
  | zero => rw [parts_zero]; rfl
  | finite hp hx => rw [hx]; rfl

theorem isNegative_eq (h : Sized s a x) : isNegative x = (s == .negative) := by
  rw [isNegative]
  cases h with
  | zero => rw [parts_zero]
  | finite hp hx => rw [hx]

theorem abs_toRat (h : Sized s a x) : |toRat x| = a := by
  cases h with
  | zero => rw [toRat_zero, abs_zero]
  | finite hp hx => exact Binary64.abs_toRat hx

theorem lt_tooLarge (h : Sized s a x) : a < tooLarge := by
  cases h with
  | zero => exact tooLarge_pos
  | @finite m q x hp hx => exact (Rounds.self m q).lt_tooLarge hp

end Sized

theorem exists_sized {x : Float} (h : x.isFinite = true) : ∃ s, Sized s |toRat x| x := by
  rw [isFinite_eq] at h
  rcases number_cases x with rfl | ⟨s, rfl⟩ | ⟨s, rfl⟩ | ⟨s, m, q, hp, hparts⟩
  · rw [parts_notANumber] at h
    cases h
  · rw [parts_infinity] at h
    cases h
  · refine ⟨s, ?_⟩
    rw [toRat_zero, abs_zero]
    exact .zero
  · refine ⟨s, ?_⟩
    rw [abs_toRat hparts]
    exact .finite hp hparts

/-! ## Products and quotients -/

/-- `v` is the size that `r` is rounded to; half of the least number and what is below it goes to
zero. -/
inductive RoundedSize (r : ℚ) : ℚ → Prop
  | tiny (h : r ≤ 2 ^ (-1075 : Int)) : RoundedSize r 0
  | number {v : ℚ} (h : RoundedTo r v) : RoundedSize r v

namespace RoundedSize

variable {r v : ℚ}

/-- The error of a rounding, in the range of the subnormal numbers too. -/
theorem near (h : RoundedSize r v) (hr : 0 ≤ r) :
    |v - r| ≤ r / 10 ^ 15 + 2 ^ (-1075 : Int) := by
  cases h with
  | tiny h =>
    rw [zero_sub, abs_neg, abs_of_nonneg hr]
    linarith
  | number h =>
    have hunit : (1 + 1 / 2000) * roundoff ≤ 1 / 10 ^ 15 := by norm_num [roundoff]
    refine h.near.trans ?_
    rw [div_eq_mul_one_div r, mul_comm r]
    gcongr

/-- Zero is not rounded. -/
theorem eq_zero (h : RoundedSize 0 v) : v = 0 := by
  cases h with
  | tiny h => rfl
  | number h => exact absurd h.pos (lt_irrefl 0)

/-- What is at least one is rounded to a number. -/
theorem roundedTo (h : RoundedSize r v) (hr : 1 ≤ r) : RoundedTo r v := by
  cases h with
  | tiny h => linarith [three_mul_half_least_lt, least_normal_le, two_zpow_pos (-1075)]
  | number h => exact h

end RoundedSize

/-- `x` is what a computation gives whose exact result has the sign `s` and the size `r`: the size
is rounded, or it is too large and there is the infinity. -/
inductive Computed (s : Sign) (r : ℚ) : Float → Prop
  | finite {x : Float} {v : ℚ} (hx : Sized s v x) (round : RoundedSize r v) : Computed s r x
  | overflow (large : tooLarge ≤ r) : Computed s r (infinity s)

namespace Computed

variable {s : Sign} {r : ℚ} {m : Nat} {q : Int}

theorem of_tiny (h : r ≤ 2 ^ (-1075 : Int)) : Computed s r (zero s) := .finite .zero (.tiny h)

theorem of_rounds (hs : Shaped m q) (h : Rounds m q r) :
    Computed s r (ofParts (.finite s m q hs.pos)) := by
  rcases lt_or_ge q 972 with hq | hq
  · have hp := hs.proper (by omega)
    exact .finite (.finite hp (parts_ofParts (.finite s hp))) (.number ⟨m, q, hp, h, rfl⟩)
  · rw [ofParts_of_large s hs hq]
    exact .overflow (h.tooLarge_le hs hq)

end Computed

section

variable {s t : Sign} {m₁ m₂ : Nat} {q₁ q₂ : Int}

/-- Two significands are long together, or both numbers are subnormal. -/
theorem product_long (hp₁ : Proper m₁ q₁) (hp₂ : Proper m₂ q₂) :
    52 ≤ (m₁ * m₂).log2 ∨ m₁ < 2 ^ 52 ∧ m₂ < 2 ^ 52 ∧ q₁ = -1074 ∧ q₂ = -1074 := by
  have hne : m₁ * m₂ ≠ 0 := (Nat.mul_pos hp₁.pos hp₂.pos).ne'
  by_cases hlong₁ : 2 ^ 52 ≤ m₁
  · exact .inl ((Nat.le_log2 hne).mpr (hlong₁.trans (Nat.le_mul_of_pos_right _ hp₂.pos)))
  by_cases hlong₂ : 2 ^ 52 ≤ m₂
  · exact .inl ((Nat.le_log2 hne).mpr (hlong₂.trans (Nat.le_mul_of_pos_left _ hp₁.pos)))
  · have hq₁ := hp₁.least.eq_or_lt.resolve_right (mt hp₁.normal hlong₁)
    have hq₂ := hp₂.least.eq_or_lt.resolve_right (mt hp₂.normal hlong₂)
    exact .inr ⟨not_le.mp hlong₁, not_le.mp hlong₂, hq₁.symm, hq₂.symm⟩

/-- The product of two subnormal numbers is far below the least number. -/
theorem product_tiny (h₁ : m₁ < 2 ^ 52) (h₂ : m₂ < 2 ^ 52) :
    (m₁ : ℚ) * 2 ^ (-1074 : Int) * (m₂ * 2 ^ (-1074 : Int)) ≤ 2 ^ (-1075 : Int) := by
  have h₁ : (m₁ : ℚ) ≤ 2 ^ (52 : Int) := by exact_mod_cast h₁.le
  have h₂ : (m₂ : ℚ) ≤ 2 ^ (52 : Int) := by exact_mod_cast h₂.le
  calc (m₁ : ℚ) * 2 ^ (-1074 : Int) * (m₂ * 2 ^ (-1074 : Int))
      ≤ 2 ^ (52 : Int) * 2 ^ (-1074 : Int) * (2 ^ (52 : Int) * 2 ^ (-1074 : Int)) := by gcongr
    _ = 2 ^ (-2044 : Int) := by simp only [← zpow_add₀ (two_ne_zero' ℚ)]; rfl
    _ ≤ 2 ^ (-1075 : Int) := zpow_le_zpow_right₀ (by norm_num) (by norm_num)

/-- A product of at most half of the least number is zero. -/
theorem mul_of_tiny (hp₁ : Proper m₁ q₁) (hp₂ : Proper m₂ q₂)
    (h : (m₁ : ℚ) * 2 ^ q₁ * (m₂ * 2 ^ q₂) ≤ 2 ^ (-1075 : Int)) :
    mul .binary64 (.finite s m₁ q₁ hp₁.pos) (.finite t m₂ q₂ hp₂.pos) = .zero (s * t) := by
  have hne : m₁ * m₂ ≠ 0 := (Nat.mul_pos hp₁.pos hp₂.pos).ne'
  refine roundWithAccuracy_of_tiny h ?_ (fun hzero => absurd hzero hne) ?_
  · have h1 := (two_zpow_pos q₁).ne'
    have h2 := (two_zpow_pos q₂).ne'
    show _ = _
    rw [zpow_add₀ (by norm_num)]
    push_cast
    field_simp
  · rcases product_long hp₁ hp₂ with hlong | ⟨-, -, hq₁, hq₂⟩ <;> omega

/-- A product of two numbers, of any size. -/
theorem mul_computed {x y : Float} (hp₁ : Proper m₁ q₁) (hp₂ : Proper m₂ q₂)
    (hx : parts x = .finite s m₁ q₁ hp₁.pos) (hy : parts y = .finite t m₂ q₂ hp₂.pos) :
    Computed (s * t) (m₁ * 2 ^ q₁ * (m₂ * 2 ^ q₂)) (x * y) := by
  have hmul : x * y = ofParts (mul .binary64 (parts x) (parts y)) := rfl
  rw [hmul, hx, hy]
  rcases le_or_gt ((m₁ : ℚ) * 2 ^ q₁ * (m₂ * 2 ^ q₂)) (2 ^ (-1075 : Int)) with htiny | hlow
  · rw [mul_of_tiny hp₁ hp₂ htiny, ← zero_eq]
    exact .of_tiny htiny
  · obtain ⟨m, q, hs, hrounds⟩ := exists_shaped hlow
    rcases product_long hp₁ hp₂ with hlong | ⟨h₁, h₂, rfl, rfl⟩
    · rw [mul_eq hs hrounds hlong]
      exact .of_rounds hs hrounds
    · exact absurd hlow (not_lt.mpr (product_tiny h₁ h₂))

/-- A quotient of two numbers, of any size. -/
theorem div_computed {x y : Float} (hp₁ : Proper m₁ q₁) (hp₂ : Proper m₂ q₂)
    (hx : parts x = .finite s m₁ q₁ hp₁.pos) (hy : parts y = .finite t m₂ q₂ hp₂.pos) :
    Computed (s / t) (m₁ * 2 ^ q₁ / (m₂ * 2 ^ q₂)) (x / y) := by
  have hdiv : x / y = ofParts (div .binary64 (parts x) (parts y)) := rfl
  rw [hdiv, hx, hy]
  rcases le_or_gt ((m₁ : ℚ) * 2 ^ q₁ / (m₂ * 2 ^ q₂)) (2 ^ (-1075 : Int)) with htiny | hlow
  · rw [div_of_tiny htiny, ← zero_eq]
    exact .of_tiny htiny
  · obtain ⟨m, q, hs, hrounds⟩ := exists_shaped hlow
    rw [div_eq hs hrounds]
    exact .of_rounds hs hrounds

end

namespace Sized

variable {s : Sign} {a w : ℚ} {x y : Float}

theorem mul_computed (hx : Sized s a x) (hy : Denotes y w) : Computed s (a * w) (x * y) := by
  obtain ⟨m, q, hp, hy, rfl⟩ := hy
  cases hx with
  | zero =>
    rw [mul_of_zero (parts_zero s) hy, zero_mul]
    exact .of_tiny (two_zpow_pos _).le
  | finite hp₁ hx =>
    have hsign : s * .positive = s := by cases s <;> rfl
    have hproduct := Binary64.mul_computed hp₁ hp hx hy
    rwa [hsign] at hproduct

theorem div_computed (hx : Sized s a x) (hy : Denotes y w) : Computed s (a / w) (x / y) := by
  obtain ⟨m, q, hp, hy, rfl⟩ := hy
  cases hx with
  | zero =>
    rw [div_of_zero (parts_zero s) hy, zero_div]
    exact .of_tiny (two_zpow_pos _).le
  | finite hp₁ hx =>
    have hsign : s / .positive = s := by cases s <;> rfl
    have hquotient := Binary64.div_computed hp₁ hp hx hy
    rwa [hsign] at hquotient

/-- A short natural number, with a sign. -/
theorem natural (s : Sign) {n : Nat} (hshort : n < 2 ^ 53) : Sized s n (nearest s n 0) := by
  rcases Nat.eq_zero_or_pos n with rfl | hn
  · rw [Nat.cast_zero]
    exact .zero
  · obtain ⟨m, q, hp, hparts, -, hvalue⟩ :=
      parts_nearest s (e := 0) hn hshort (by norm_num) (by norm_num)
    rw [zpow_zero, mul_one] at hvalue
    exact hvalue ▸ .finite hp hparts

/-- With half of the divisor added a quotient is cut off to the nearest whole number. -/
theorem quotient_half_up (m : Nat) {d : Nat} (hd : 0 < d) :
    (((2 * m + d) / (2 * d) : Nat) : ℚ) - 1 / 2 ≤ m / d ∧
      (m : ℚ) / d < ((2 * m + d) / (2 * d) : Nat) + 1 / 2 := by
  have hlow := Nat.div_mul_le_self (2 * m + d) (2 * d)
  have hhigh := Nat.lt_div_mul_add (a := 2 * m + d) (b := 2 * d) (by positivity)
  generalize (2 * m + d) / (2 * d) = n at hlow hhigh ⊢
  have hlow : (n : ℚ) * (2 * d) ≤ 2 * m + d := by exact_mod_cast hlow
  have hhigh : 2 * (m : ℚ) + d < n * (2 * d) + 2 * d := by exact_mod_cast hhigh
  have hpos : (0 : ℚ) < d := by exact_mod_cast hd
  rw [le_div_iff₀ hpos, div_lt_iff₀ hpos]
  constructor <;> linarith

/-- Rounding to a whole number goes to the nearest one, from a half up, and keeps the sign. -/
theorem roundHalfAway (hx : Sized s a x) :
    ∃ n : Nat, Sized s n (roundHalfAway x) ∧ (n : ℚ) - 1 / 2 ≤ a ∧ a < n + 1 / 2 := by
  unfold Binary64.roundHalfAway
  cases hx with
  | zero =>
    rw [parts_zero]
    exact ⟨0, by simpa using Sized.zero, by norm_num, by norm_num⟩
  | @finite m q x hp hx =>
    rw [hx]
    dsimp only
    split
    · next hq =>
      obtain ⟨k, rfl⟩ := Int.eq_ofNat_of_zero_le hq
      have hvalue : ((m * 2 ^ k : Nat) : ℚ) = m * 2 ^ (k : Int) := by
        push_cast
        rw [zpow_natCast]
      refine ⟨m * 2 ^ k, hvalue ▸ .finite hp hx, ?_, ?_⟩ <;> linarith
    · next hq =>
      obtain ⟨k, hk, rfl⟩ : ∃ k : Nat, 0 < k ∧ q = -k := ⟨(-q).toNat, by omega, by omega⟩
      rw [neg_neg, Int.toNat_natCast]
      have hpow : Nat.pow 2 k = 2 ^ k := rfl
      have hpow' : Nat.pow 2 (k + 1) = 2 * 2 ^ k := pow_succ' 2 k
      rw [hpow, hpow']
      have htwo : 2 ≤ 2 ^ k := Nat.le_self_pow hk.ne' 2
      have hshort : (2 * m + 2 ^ k) / (2 * 2 ^ k) < 2 ^ 53 := by
        have hbelow := hp.below
        rw [Nat.div_lt_iff_lt_mul (by positivity)]
        omega
      have hbounds := quotient_half_up m (Nat.two_pow_pos k)
      rw [zpow_neg, zpow_natCast, ← div_eq_mul_inv]
      rw [Nat.cast_pow, Nat.cast_ofNat] at hbounds
      exact ⟨_, .natural s hshort, hbounds⟩

end Sized

/-! ## Scaling up and down -/

section

variable {x : Float} {p : UInt32} {s : Sign} {a w : ℚ}

/-- What becomes of a number of the size `a` at a scale `w`. -/
inductive Scaled (s : Sign) (a w : ℚ) (x y : Float) : Prop
  | unchanged (same : y = x) (large : tooLarge ≤ a * w)
  | rounded {u : ℚ} {n : Nat} (up : RoundedSize (a * w) u) (hu : u < tooLarge)
    (low : (n : ℚ) - 1 / 2 ≤ u) (high : u < n + 1 / 2) (hn : n < tooLarge)
    (down : Computed s (n / w) y)

/-- **The computation** at any scale that is a number. -/
theorem roundTo_of_scale (hx : Sized s a x) (hw : Denotes (tenPower p.toInt32.toInt) w) :
    Scaled s a w x (roundTo x p) := by
  have hproduct := hx.mul_computed hw
  unfold roundTo
  dsimp only
  generalize x * tenPower p.toInt32.toInt = z at hproduct
  cases hproduct with
  | overflow large =>
    have hinfinite : (infinity s).isFinite = false := by rw [isFinite_eq, parts_infinity]; rfl
    rw [hinfinite, Bool.and_false, if_neg Bool.false_ne_true]
    exact .unchanged rfl large
  | finite hz round =>
    obtain ⟨n, hn, hlow, hhigh⟩ := hz.roundHalfAway
    rw [hx.isFinite, hz.isFinite, Bool.and_self, if_pos rfl]
    exact .rounded round hz.lt_tooLarge hlow hhigh hn.lt_tooLarge (hn.div_computed hw)

end

end DeskCalculator.Binary64
