import DeskCalculator.Elementary.Logarithm
import Mathlib

/-!
# DeskCalculator.Proofs.LogarithmBounds — the sum behind a logarithm is zero for the number one only

`fixedLog m q` is `e log 2` and twice a series in `z`.  The series has the sign of `z`, and it is
too small to make up for a multiple of `log 2` other than zero.  So the sum is zero only if both are
zero, and then `m * 2 ^ q` is one.

* `oddSeries_pos`, `oddSeries_neg`: the sign of the series.
* `abs_oddSeries_le`: the size of the series.
* `fixedLog_eq_zero`: where the sum is zero.
* `abs_fixedLog_le`: the size of the sum.
-/

namespace DeskCalculator.Elementary

theorem one_pos : (0 : Int) < one := by decide

/-! ## The series -/

section

variable {square p : Int} {terms k : Nat}

theorem oddSeries_nonneg (hsquare : 0 ≤ square) (hp : 0 ≤ p) :
    0 ≤ oddSeries 1 square terms k p := by
  induction terms generalizing k p with
  | zero => exact le_rfl
  | succ terms ih =>
    have hnext : 0 ≤ 1 * (p * square / one) := by
      rw [one_mul]
      exact Int.ediv_nonneg (mul_nonneg hp hsquare) one_pos.le
    exact add_nonneg (Int.ediv_nonneg hp (by positivity)) (ih hnext)

theorem oddSeries_nonpos (hsquare : 0 ≤ square) (hp : p ≤ 0) :
    oddSeries 1 square terms k p ≤ 0 := by
  induction terms generalizing k p with
  | zero => exact le_rfl
  | succ terms ih =>
    have hnext : 1 * (p * square / one) ≤ 0 := by
      rw [one_mul]
      exact Int.ediv_nonpos_of_nonpos_of_neg (mul_nonpos_of_nonpos_of_nonneg hp hsquare) one_pos
    exact add_nonpos (Int.ediv_nonpos_of_nonpos_of_neg hp (by positivity)) (ih hnext)

/-- The first term is not cut off. -/
theorem oddSeries_first : oddSeries 1 square (terms + 1) 0 p =
    p + oddSeries 1 square terms 1 (p * square / one) := by
  simp [oddSeries]

theorem oddSeries_pos (hsquare : 0 ≤ square) (hp : 0 < p) :
    0 < oddSeries 1 square (terms + 1) 0 p := by
  have hnext : 0 ≤ p * square / one := Int.ediv_nonneg (mul_nonneg hp.le hsquare) one_pos.le
  rw [oddSeries_first]
  exact add_pos_of_pos_of_nonneg hp (oddSeries_nonneg hsquare hnext)

theorem oddSeries_neg (hsquare : 0 ≤ square) (hp : p < 0) :
    oddSeries 1 square (terms + 1) 0 p < 0 := by
  have hnext : p * square / one ≤ 0 :=
    Int.ediv_nonpos_of_nonpos_of_neg (mul_nonpos_of_nonpos_of_nonneg hp.le hsquare) one_pos
  rw [oddSeries_first]
  exact add_neg_of_neg_of_nonpos hp (oddSeries_nonpos hsquare hnext)

/-- Each term is at most a twenty-fifth of the one before, but for what is cut off. -/
theorem abs_next_le (hsquare : 0 ≤ square) (hsmall : 25 * square ≤ one) :
    25 * |p * square / one| ≤ |p| + 25 := by
  have hproduct : 25 * |p * square| ≤ |p| * one :=
    calc 25 * |p * square| = |p| * (25 * square) := by
          rw [abs_mul, abs_of_nonneg hsquare]
          ring
      _ ≤ |p| * one := mul_le_mul_of_nonneg_left hsmall (abs_nonneg p)
  obtain ⟨hbelow, habove⟩ := abs_le.mp (le_refl |p * square|)
  have hlow := Int.ediv_mul_le (p * square) one_pos.ne'
  have hhigh := Int.lt_ediv_add_one_mul_self (p * square) one_pos
  have hmost : 25 * (p * square / one) ≤ |p| := by
    refine le_of_mul_le_mul_right ?_ one_pos
    linarith
  have hleast : -(|p| + 25) ≤ 25 * (p * square / one) := by
    refine le_of_mul_le_mul_right ?_ one_pos
    linarith
  rcases abs_cases (p * square / one) with ⟨habs, -⟩ | ⟨habs, -⟩ <;> rw [habs] <;> linarith

/-- The whole sum is at most one and a half times its first term, but for what is cut off. -/
theorem abs_oddSeries_le (hsquare : 0 ≤ square) (hsmall : 25 * square ≤ one) :
    2 * |oddSeries 1 square terms k p| ≤ 3 * |p| + 6 * terms := by
  induction terms generalizing k p with
  | zero => simp [oddSeries]
  | succ terms ih =>
    have hterm : |p / (2 * k + 1)| ≤ |p| := Int.abs_ediv_le_abs _ _
    have hnext := abs_next_le (p := p) hsquare hsmall
    have hrest := ih (k := k + 1) (p := 1 * (p * square / one))
    have hsum := abs_add_le (p / (2 * k + 1))
      (oddSeries 1 square terms (k + 1) (1 * (p * square / one)))
    have hp := abs_nonneg p
    rw [one_mul] at hrest hsum
    rw [oddSeries, one_mul]
    push_cast
    linarith

end

/-! ## The argument of the series -/

section

variable {f : Int}

/-- `(f - 1) / (f + 1)`, cut off. -/
def reduced (f : Int) : Int := (f - one) * one / (f + one)

theorem reduced_neg (hlow : 0 ≤ f) (hhigh : f < one) : reduced f < 0 := by
  have hone := one_pos
  exact Int.ediv_neg_of_neg_of_pos (mul_neg_of_neg_of_pos (by linarith) hone) (by linarith)

theorem reduced_pos (hlow : one + 4 ≤ f) (hhigh : 2 * f < 3 * one) : 0 < reduced f := by
  have hone := one_pos
  have hproduct : 4 * (one : Int) ≤ (f - one) * one :=
    mul_le_mul_of_nonneg_right (by linarith) hone.le
  refine Int.lt_of_add_one_le ((Int.le_ediv_iff_mul_le (by linarith)).mpr ?_)
  linarith

theorem abs_reduced_le (hlow : 5 * one ≤ 7 * f) (hhigh : 2 * f < 3 * one) :
    5 * |reduced f| ≤ one := by
  have hone : (30 : Int) ≤ one := by decide
  have hdenominator : 0 < f + one := by linarith
  have hfloor : reduced f * (f + one) ≤ (f - one) * one := Int.ediv_mul_le _ hdenominator.ne'
  have hceiling : (f - one) * one < (reduced f + 1) * (f + one) :=
    Int.lt_ediv_add_one_mul_self _ hdenominator
  have hmost : 5 * reduced f ≤ one := by
    have hproduct : 4 * (f * one) ≤ 6 * (one * one : Int) := by nlinarith
    refine le_of_mul_le_mul_right ?_ hdenominator
    linarith
  have hleast : -(one : Int) < 6 * (reduced f + 1) := by
    have hproduct : 5 * (one * one : Int) ≤ 7 * (f * one) := by nlinarith
    refine lt_of_mul_lt_mul_right ?_ hdenominator.le
    linarith
  rcases abs_cases (reduced f) with ⟨habs, -⟩ | ⟨habs, -⟩ <;> rw [habs] <;> linarith

/-- The square is not negative, and at most a twenty-fifth. -/
theorem square_bounds (hlow : 5 * one ≤ 7 * f) (hhigh : 2 * f < 3 * one) :
    0 ≤ reduced f * reduced f / one ∧ 25 * (reduced f * reduced f / one) ≤ one := by
  have hone := one_pos
  have hreduced := abs_reduced_le hlow hhigh
  refine ⟨Int.ediv_nonneg (mul_self_nonneg _) hone.le, le_of_mul_le_mul_right ?_ hone⟩
  have hproduct : 25 * (reduced f * reduced f) ≤ one * one :=
    calc 25 * (reduced f * reduced f) = (5 * |reduced f|) * (5 * |reduced f|) := by
          rw [← abs_mul_abs_self]
          ring
      _ ≤ one * one := mul_le_mul hreduced hreduced (by positivity) hone.le
  have hfloor := Int.ediv_mul_le (reduced f * reduced f) hone.ne'
  linarith

/-- The series for `f`. -/
def series (f : Int) : Int := oddSeries 1 (reduced f * reduced f / one) 70 0 (reduced f)

theorem series_neg (hlow : 5 * one ≤ 7 * f) (hhigh : f < one) : series f < 0 := by
  have hone := one_pos
  exact oddSeries_neg (square_bounds hlow (by linarith)).1 (reduced_neg (by linarith) hhigh)

theorem series_pos (hlow : one + 4 ≤ f) (hhigh : 2 * f < 3 * one) : 0 < series f := by
  have hone := one_pos
  exact oddSeries_pos (square_bounds (by linarith) hhigh).1 (reduced_pos hlow hhigh)

/-- The series is not larger than `3 / 5`, but for what is cut off. -/
theorem abs_series_le (hlow : 5 * one ≤ 7 * f) (hhigh : 2 * f < 3 * one) :
    5 * |2 * series f| ≤ 3 * one + 2100 := by
  obtain ⟨hsquare, hsmall⟩ := square_bounds hlow hhigh
  have hreduced := abs_reduced_le hlow hhigh
  have hseries : 2 * |series f| ≤ 3 * |reduced f| + 6 * (70 : Nat) :=
    abs_oddSeries_le hsquare hsmall
  rw [abs_mul, abs_two]
  push_cast at hseries
  linarith

end

/-! ## The sum -/

/-- The sum for `f * 2 ^ e`. -/
def logOf (f e : Int) : Int := e * logTwo + 2 * series f

/-- The significand in units of `2 ^ -places`, moved to one or above it. -/
def significand (m : Nat) : Nat := m * 2 ^ (places - m.log2)

theorem fixedLog_of_large {m : Nat} (q : Int) (h : 3 * one ≤ 2 * significand m) :
    fixedLog m q = logOf (significand m / 2 : Nat) (q + m.log2 + 1) := by
  have hlarge : 3 * (one : Int) ≤ 2 * (m * Nat.pow 2 (places - m.log2) : Int) := by exact_mod_cast h
  simp only [fixedLog, if_pos hlarge, logOf, series, reduced, significand]
  push_cast
  rfl

theorem fixedLog_of_small {m : Nat} (q : Int) (h : 2 * significand m < 3 * one) :
    fixedLog m q = logOf (significand m) (q + m.log2) := by
  have hsmall : ¬ 3 * (one : Int) ≤ 2 * (m * Nat.pow 2 (places - m.log2) : Int) := by
    rw [not_le]
    exact_mod_cast h
  simp only [fixedLog, if_neg hsmall, logOf, series, reduced, significand]
  push_cast
  rfl

section

variable {m : Nat}

theorem one_eq (hlog : m.log2 ≤ 52) : one = 2 ^ m.log2 * 2 ^ (places - m.log2) := by
  rw [← pow_add, Nat.add_sub_cancel' (hlog.trans (by decide))]
  rfl

theorem significand_bounds (hm : 0 < m) (hlog : m.log2 ≤ 52) :
    one ≤ significand m ∧ significand m < 2 * one := by
  rw [one_eq hlog, ← Nat.mul_assoc, ← Nat.pow_succ']
  exact ⟨Nat.mul_le_mul_right _ (Nat.log2_self_le hm.ne'),
    Nat.mul_lt_mul_of_pos_right Nat.lt_log2_self (by positivity)⟩

/-- A significand of few bits that is above one is above it by far more than a unit. -/
theorem significand_place (hm : 0 < m) (hlog : m.log2 ≤ 52) :
    significand m = one ∧ m = 2 ^ m.log2 ∨ one + 4 ≤ significand m := by
  have hunits : 2 ^ 2 ≤ 2 ^ (places - m.log2) :=
    Nat.pow_le_pow_right (by norm_num) (Nat.le_sub_of_add_le (by unfold places; omega))
  rcases (Nat.log2_self_le hm.ne').eq_or_lt with hpower | hlt
  · refine .inl ⟨?_, hpower.symm⟩
    rw [one_eq hlog, hpower, significand]
  · right
    calc one + 4 ≤ 2 ^ m.log2 * 2 ^ (places - m.log2) + 2 ^ (places - m.log2) := by
          rw [← one_eq hlog]
          exact Nat.add_le_add_left hunits one
      _ = (2 ^ m.log2 + 1) * 2 ^ (places - m.log2) := (Nat.succ_mul _ _).symm
      _ ≤ significand m := Nat.mul_le_mul_right _ hlt

end

/-- `m * 2 ^ q` is `f * 2 ^ e`, with `f` in units of `2 ^ -places`. -/
structure Scaled (m : Nat) (q f e : Int) : Prop where
  sum : fixedLog m q = logOf f e
  low : 5 * one ≤ 7 * f
  high : 2 * f < 3 * one
  exponent : |e| ≤ |q| + 53
  place : f < one ∨ one + 4 ≤ f ∨ f = one ∧ m = 2 ^ m.log2 ∧ e = q + m.log2

theorem exists_scaled (m : Nat) (hm : 0 < m) (hshort : m < 2 ^ 53) (q : Int) :
    ∃ f e, Scaled m q f e := by
  have hlog : m.log2 ≤ 52 := Nat.le_of_lt_succ ((Nat.log2_lt hm.ne').mpr hshort)
  obtain ⟨hleast, hmost⟩ := significand_bounds hm hlog
  have hcut : 30 ≤ one := by decide
  have hexponent (k : Nat) (hk : k ≤ 53) : |q + k| ≤ |q| + 53 := by
    have hsum := abs_add_le q k
    rw [Nat.abs_cast] at hsum
    omega
  rcases Nat.lt_or_ge (2 * significand m) (3 * one) with hsmall | hlarge
  · refine ⟨_, _, fixedLog_of_small q hsmall, ?_, ?_, hexponent _ (by omega), .inr ?_⟩
    · omega
    · omega
    · rcases significand_place hm hlog with ⟨hone, hpower⟩ | hplace
      · exact .inr ⟨by rw [hone], hpower, rfl⟩
      · exact .inl (by exact_mod_cast hplace)
  · have hsum : q + m.log2 + 1 = q + (m.log2 + 1 : Nat) := add_assoc _ _ _
    refine ⟨_, _, fixedLog_of_large q hlarge, ?_, ?_, ?_, .inl ?_⟩
    · omega
    · omega
    · exact hsum ▸ hexponent _ (by omega)
    · omega

section

variable {m : Nat} {q f e : Int}

theorem logTwo_bounds : 3 * one + 2100 < 5 * logTwo ∧ logTwo ≤ one := by decide +kernel

/-- The series does not make up for a multiple of `log 2`. -/
theorem Scaled.eq_zero (h : Scaled m q f e) (hzero : fixedLog m q = 0) :
    e = 0 ∧ series f = 0 := by
  have hseries := abs_series_le h.low h.high
  have hlogTwo := logTwo_bounds.1
  have hone := one_pos
  rw [h.sum, logOf] at hzero
  have hdvd : logTwo ∣ 2 * series f := ⟨-e, by linarith⟩
  have hmultiple := Int.eq_zero_of_abs_lt_dvd hdvd (by linarith)
  rw [hmultiple, add_zero] at hzero
  exact ⟨(mul_eq_zero.mp hzero).resolve_right (by omega), by omega⟩

/-- **The sum is zero for the number one only.** -/
theorem fixedLog_eq_zero (hm : 0 < m) (hshort : m < 2 ^ 53) (h : fixedLog m q = 0) :
    (m : ℚ) * 2 ^ q = 1 := by
  obtain ⟨f, e, hscaled⟩ := exists_scaled m hm hshort q
  obtain ⟨he, hseries⟩ := hscaled.eq_zero h
  rcases hscaled.place with hbelow | habove | ⟨-, hpower, hexponent⟩
  · exact absurd hseries (series_neg hscaled.low hbelow).ne
  · exact absurd hseries (series_pos habove hscaled.high).ne'
  · obtain rfl : q = -m.log2 := by omega
    rw [hpower, Nat.log2_two_pow]
    push_cast
    rw [zpow_neg, zpow_natCast]
    exact mul_inv_cancel₀ (by positivity)

theorem abs_fixedLog_le (hm : 0 < m) (hshort : m < 2 ^ 53) :
    |fixedLog m q| ≤ (|q| + 55) * one := by
  obtain ⟨f, e, hscaled⟩ := exists_scaled m hm hshort q
  obtain ⟨hlow, hhigh⟩ := logTwo_bounds
  have hseries := abs_series_le hscaled.low hscaled.high
  have hone := one_pos
  have hmultiple : |e * logTwo| ≤ (|q| + 53) * one := by
    have hpos : 0 ≤ logTwo := by linarith
    rw [abs_mul, abs_of_nonneg hpos]
    exact mul_le_mul hscaled.exponent hhigh hpos (add_nonneg (abs_nonneg q) (by norm_num))
  have hsum := abs_add_le (e * logTwo) (2 * series f)
  rw [hscaled.sum, logOf]
  linarith

end

end DeskCalculator.Elementary
