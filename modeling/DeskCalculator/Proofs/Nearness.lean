import DeskCalculator.Proofs.Scientific

/-!
# DeskCalculator.Proofs.Nearness — how near a number is to what is rounded to it

Every positive rational that is not too large or too small is rounded to some number, and the number
is near it.  `Within k v r` says that `v` is as near to `r` as `k` roundings leave it: they differ by
a factor of at most so many grains, so that in products and quotients the roundings are added.

* `exists_rounds`: every positive rational within the range is rounded to a number.
* `RoundedTo.within`: one rounding.
-/

namespace DeskCalculator.Binary64

/-! ## What is rounded to some number -/

theorem exists_nearestEven {t : ℚ} (ht : 0 ≤ t) : ∃ n, NearestEven t n := by
  have hle : (⌊t⌋₊ : ℚ) ≤ t := Nat.floor_le ht
  have hlt : t < ⌊t⌋₊ + 1 := Nat.lt_floor_add_one t
  generalize ⌊t⌋₊ = n at hle hlt
  rcases lt_trichotomy t (n + 1 / 2) with h | h | h
  · exact ⟨n, .inl (by linarith), .inl h⟩
  · by_cases hn : Even n
    · exact ⟨n, .inl (by linarith), .inr ⟨h, hn⟩⟩
    · have hnext : Even (n + 1) := Nat.even_add_one.mpr hn
      refine ⟨n + 1, .inr ⟨?_, hnext⟩, .inl ?_⟩ <;> push_cast <;> linarith
  · refine ⟨n + 1, .inl ?_, .inl ?_⟩ <;> push_cast <;> linarith

/-- The least rational that is too large to be rounded to a number. -/
def tooLarge : ℚ := (2 ^ 54 - 1) * 2 ^ 970

/-- The range of the rationals that are rounded to some number, but for its lower end. -/
def InRange (r : ℚ) : Prop := 2 ^ (-1075 : Int) < r ∧ r < tooLarge

theorem half_least : (2 : ℚ) ^ (-1075 : Int) = 1 / 2 * 2 ^ (-1074 : Int) := by
  rw [show (-1075 : Int) = -1 + -1074 by norm_num, zpow_add₀ (by norm_num)]
  norm_num

section

variable {r : ℚ}

/-- The exponent of a number that `r` is rounded to, unless the rounding goes up to the next one. -/
theorem exists_exponent (hr : 0 < r) : ∃ q : Int, -1074 ≤ q ∧ r < 2 ^ (53 + q) ∧
    (-1074 < q → 2 ^ (52 + q) ≤ r) := by
  have hlow : (2 : ℚ) ^ Int.log 2 r ≤ r := by exact_mod_cast Int.zpow_log_le_self (by norm_num) hr
  have hhigh : r < (2 : ℚ) ^ (Int.log 2 r + 1) := by
    exact_mod_cast Int.lt_zpow_succ_log_self (by norm_num) r
  generalize Int.log 2 r = k at hlow hhigh
  refine ⟨max (k - 52) (-1074), le_max_right _ _, hhigh.trans_le ?_, fun hq => ?_⟩
  · exact zpow_le_zpow_right₀ (by norm_num) (by omega)
  · have hk : 52 + max (k - 52) (-1074) = k := by omega
    rwa [hk]

theorem NearestEven.bounds {t : ℚ} {n : Nat} (h : NearestEven t n) :
    (n : ℚ) - 1 / 2 ≤ t ∧ t ≤ n + 1 / 2 := by
  constructor
  · rcases h.low with h | ⟨h, -⟩ <;> linarith
  · rcases h.high with h | ⟨h, -⟩ <;> linarith

/-- A rounding that goes up to the first number of the next binade. -/
theorem rounds_carry {q : Int} (hq : -1074 ≤ q) (h : NearestEven (r / 2 ^ q) (2 ^ 53))
    (hbelow : r / 2 ^ q < 2 ^ 53) : Rounds (2 ^ 52) (q + 1) r := by
  have hhalf : r / 2 ^ (q + 1) = r / 2 ^ q / 2 := by
    rw [zpow_add₀ (by norm_num), zpow_one, div_div]
  have hlow := h.bounds.1
  refine ⟨?_, .inl ?_⟩
  · rw [if_pos ⟨rfl, by omega⟩, hhalf]
    push_cast at hlow ⊢
    rcases hlow.lt_or_eq with hlow | hlow
    · left; linarith
    · right
      exact ⟨by linarith, by decide⟩
  · rw [hhalf]
    push_cast
    linarith

theorem rounds_of_nearestEven {n : Nat} {q : Int} (h : NearestEven (r / 2 ^ q) n)
    (hfirst : -1074 < q → 2 ^ 52 ≤ r / 2 ^ q) : Rounds n q r := by
  refine ⟨?_, h.high⟩
  split
  · next hn =>
    obtain ⟨rfl, hq⟩ := hn
    have hle := hfirst hq
    left
    push_cast
    linarith
  · exact h.low

/-- What is not below half of the least number is rounded to a significand and an exponent, which may
be too large. -/
theorem exists_shaped (hlow : 2 ^ (-1075 : Int) < r) : ∃ m q, Shaped m q ∧ Rounds m q r := by
  have hr : 0 < r := (two_zpow_pos _).trans hlow
  obtain ⟨q, hleast, hbelow, habove⟩ := exists_exponent hr
  have hpos := two_zpow_pos q
  obtain ⟨n, hn⟩ := exists_nearestEven (div_pos hr hpos).le
  obtain ⟨hnlow, hnhigh⟩ := hn.bounds
  have hbelow : r / 2 ^ q < 2 ^ 53 := by
    rw [div_lt_iff₀ hpos]
    rwa [zpow_add₀ (by norm_num)] at hbelow
  have hfirst : -1074 < q → 2 ^ 52 ≤ r / 2 ^ q := by
    intro hq
    rw [le_div_iff₀ hpos]
    have h := habove hq
    rwa [zpow_add₀ (by norm_num)] at h
  have hle : n ≤ 2 ^ 53 := by
    have h : (n : ℚ) < 2 ^ 53 + 1 := by linarith
    exact Nat.lt_succ_iff.mp (by exact_mod_cast h)
  rcases hle.lt_or_eq with hlt | rfl
  · refine ⟨n, q, ⟨?_, hlt, hleast, fun hq => ?_⟩, rounds_of_nearestEven hn hfirst⟩
    · refine Nat.pos_of_ne_zero ?_
      rintro rfl
      rcases hleast.lt_or_eq with hq | rfl
      · have h := hfirst hq
        push_cast at hnhigh
        linarith
      · rw [half_least, ← lt_div_iff₀ hpos] at hlow
        rw [Nat.cast_zero, zero_add] at hnhigh
        exact absurd hlow (not_lt.mpr hnhigh)
    · have h : (2 : ℚ) ^ 52 < n + 1 := by
        have := hfirst hq
        linarith
      exact Nat.lt_succ_iff.mp (by exact_mod_cast h)
  · exact ⟨2 ^ 52, q + 1, ⟨by norm_num, by norm_num, by omega, fun _ => le_rfl⟩,
      rounds_carry hleast hn hbelow⟩

variable {m : Nat} {q : Int}

/-- What is rounded to a number is not too large. -/
theorem Rounds.lt_tooLarge (hp : Proper m q) (h : Rounds m q r) : r < tooLarge := by
  have hle : (m : ℚ) + 1 ≤ 2 ^ 53 := by exact_mod_cast hp.below
  -- the half above the largest number is rounded up, since the number is odd
  have hlt : r / 2 ^ q < 2 ^ 53 - 1 / 2 := by
    rcases h.high with h | ⟨h, heven⟩
    · linarith
    · have hne : m + 1 ≠ 2 ^ 53 := by
        intro hm
        have hodd : Odd m := ⟨2 ^ 52 - 1, by omega⟩
        exact Nat.not_even_iff_odd.mpr hodd heven
      have hlt : (m : ℚ) + 1 < 2 ^ 53 := by
        exact_mod_cast Nat.lt_of_le_of_ne hp.below hne
      linarith
  have hpow : (2 : ℚ) ^ q ≤ 2 * 2 ^ 970 := by
    rw [← pow_succ', ← zpow_natCast]
    exact zpow_le_zpow_right₀ (by norm_num) hp.greatest
  calc r < (2 ^ 53 - 1 / 2) * 2 ^ q := (div_lt_iff₀ (two_zpow_pos q)).mp hlt
    _ ≤ (2 ^ 53 - 1 / 2) * (2 * 2 ^ 970) := mul_le_mul_of_nonneg_left hpow (by norm_num)
    _ = tooLarge := by
      rw [tooLarge]
      generalize (2 : ℚ) ^ 970 = top
      ring

/-- What is rounded to an exponent that is too large is too large itself. -/
theorem Rounds.tooLarge_le (hs : Shaped m q) (h : Rounds m q r) (hq : 972 ≤ q) :
    tooLarge ≤ r := by
  have hm : (2 : ℚ) ^ 52 ≤ m := by exact_mod_cast hs.normal (by omega)
  have hlow : (2 : ℚ) ^ 52 - 1 / 4 ≤ r / 2 ^ q := by
    have hlow := h.low
    split at hlow
    · rcases hlow with h | ⟨h, -⟩ <;> linarith
    · next hne =>
      have hne : m ≠ 2 ^ 52 := fun hm => hne ⟨hm, by omega⟩
      have hlt : (2 : ℚ) ^ 52 + 1 ≤ m := by
        have := hs.normal (by omega)
        exact_mod_cast (show 2 ^ 52 + 1 ≤ m by omega)
      rcases hlow with h | ⟨h, -⟩ <;> linarith
  have hpow : (2 : ℚ) ^ 2 * 2 ^ 970 ≤ 2 ^ q := by
    rw [← pow_add, ← zpow_natCast]
    exact zpow_le_zpow_right₀ (by norm_num) hq
  calc tooLarge = (2 ^ 52 - 1 / 4) * (2 ^ 2 * 2 ^ 970) := by
        rw [tooLarge]
        generalize (2 : ℚ) ^ 970 = top
        ring
    _ ≤ (2 ^ 52 - 1 / 4) * 2 ^ q := mul_le_mul_of_nonneg_left hpow (by norm_num)
    _ ≤ r := (le_div_iff₀ (two_zpow_pos q)).mp hlow

/-- **Every positive rational within the range is rounded to a number.** -/
theorem exists_rounds (h : InRange r) : ∃ m q, Proper m q ∧ Rounds m q r := by
  obtain ⟨m, q, hs, hrounds⟩ := exists_shaped h.1
  refine ⟨m, q, hs.proper ?_, hrounds⟩
  by_contra hlarge
  exact absurd h.2 (not_lt.mpr (hrounds.tooLarge_le hs (by omega)))

end

/-! ## Roundings -/

/-- `v` is the number that `r` is rounded to. -/
def RoundedTo (r v : ℚ) : Prop := ∃ m q, Proper m q ∧ Rounds m q r ∧ v = m * 2 ^ q

/-- Half of the distance from one to the next number. -/
def roundoff : ℚ := 2 ^ (-53 : Int)

/-- The factor by which a rounding changes a number at most; there is some room in it. -/
def grain : ℚ := 1 + 1001 / 1000 * roundoff

/-- `v` is as near to `r` as `k` roundings leave it. -/
structure Within (k : Nat) (v r : ℚ) : Prop where
  low : r ≤ v * grain ^ k
  high : v ≤ r * grain ^ k

theorem roundoff_pos : 0 < roundoff := two_zpow_pos _

theorem roundoff_le : roundoff ≤ 1 / 1000000 := by
  norm_num [roundoff]

theorem one_le_grain : 1 ≤ grain := by
  norm_num [grain, roundoff]

theorem one_le_grain_pow (k : Nat) : 1 ≤ grain ^ k := one_le_pow₀ one_le_grain

theorem grain_pow_pos (k : Nat) : 0 < grain ^ k := one_pos.trans_le (one_le_grain_pow k)

theorem grain_pow_le {k : Nat} (hk : k ≤ 10) : grain ^ k ≤ 1001 / 1000 :=
  calc grain ^ k ≤ grain ^ 10 := pow_le_pow_right₀ one_le_grain hk
    _ ≤ 1001 / 1000 := by norm_num [grain, roundoff]

namespace Within

variable {j k : Nat} {a b r s v : ℚ}

theorem pos (h : Within k v r) (hr : 0 < r) : 0 < v :=
  pos_of_mul_pos_left (hr.trans_le h.low) (grain_pow_pos k).le

theorem about (h : Within k v r) (hk : k ≤ 10) (hr : 0 < r) :
    999 / 1000 * r ≤ v ∧ v ≤ 1001 / 1000 * r := by
  have hgrain := grain_pow_le hk
  have hv := h.pos hr
  have hlow : r ≤ v * (1001 / 1000) := h.low.trans (by gcongr)
  have hhigh : v ≤ r * (1001 / 1000) := h.high.trans (by gcongr)
  constructor <;> linarith

theorem mono (h : Within j v r) (hjk : j ≤ k) (hr : 0 < r) : Within k v r := by
  have hv := h.pos hr
  have hgrain : grain ^ j ≤ grain ^ k := pow_le_pow_right₀ one_le_grain hjk
  exact ⟨h.low.trans (by gcongr), h.high.trans (by gcongr)⟩

/-- The roundings of what is rounded already are added. -/
theorem trans (h : Within j a b) (h' : Within k b r) : Within (j + k) a r := by
  have hj := grain_pow_pos j
  have hk := grain_pow_pos k
  constructor
  · calc r ≤ b * grain ^ k := h'.low
      _ ≤ a * grain ^ j * grain ^ k := mul_le_mul_of_nonneg_right h.low hk.le
      _ = a * grain ^ (j + k) := by rw [pow_add, mul_assoc]
  · calc a ≤ b * grain ^ j := h.high
      _ ≤ r * grain ^ k * grain ^ j := mul_le_mul_of_nonneg_right h'.high hj.le
      _ = r * grain ^ (j + k) := by rw [pow_add, mul_assoc, mul_comm (grain ^ k)]

/-- The roundings of both factors are added. -/
theorem mul (h : Within j a r) (h' : Within k b s) (hr : 0 < r) (hs : 0 < s) :
    Within (j + k) (a * b) (r * s) := by
  have ha := h.pos hr
  have hb := h'.pos hs
  have hj := grain_pow_pos j
  constructor
  · calc r * s ≤ a * grain ^ j * (b * grain ^ k) := mul_le_mul h.low h'.low hs.le (by positivity)
      _ = a * b * grain ^ (j + k) := by rw [pow_add, mul_mul_mul_comm]
  · calc a * b ≤ r * grain ^ j * (s * grain ^ k) := mul_le_mul h.high h'.high hb.le (by positivity)
      _ = r * s * grain ^ (j + k) := by rw [pow_add, mul_mul_mul_comm]

theorem inv (h : Within k b s) (hs : 0 < s) : Within k b⁻¹ s⁻¹ := by
  have hb := h.pos hs
  have hk := grain_pow_pos k
  constructor
  · rw [inv_mul_eq_div, le_div_iff₀ hb, inv_mul_le_iff₀ hs]
    exact h.high
  · rw [inv_mul_eq_div, le_div_iff₀ hs, inv_mul_le_iff₀ hb]
    exact h.low

theorem div (h : Within j a r) (h' : Within k b s) (hr : 0 < r) (hs : 0 < s) :
    Within (j + k) (a / b) (r / s) := by
  rw [div_eq_mul_inv, div_eq_mul_inv]
  exact h.mul (h'.inv hs) hr (inv_pos.mpr hs)

/-- A small error is made up for by the roundings. -/
theorem of_abs_le (hk : k ≤ 10) (hr : 0 < r) (h : |v - r| ≤ k * (1 + 1 / 2000) * roundoff * r) :
    Within k v r := by
  have hpow : 1 + k * (1001 / 1000 * roundoff) ≤ grain ^ k :=
    one_add_mul_le_pow (by linarith [roundoff_pos]) k
  have hsmall : k * roundoff ≤ 1 / 10000 :=
    calc k * roundoff ≤ 10 * (1 / 1000000) :=
          mul_le_mul (by exact_mod_cast hk) roundoff_le roundoff_pos.le (by norm_num)
      _ ≤ 1 / 10000 := by norm_num
  have hnonneg : 0 ≤ k * roundoff := mul_nonneg (Nat.cast_nonneg k) roundoff_pos.le
  have hfactor : k * (1001 / 1000 * roundoff) = 1001 / 1000 * (k * roundoff) := by ring
  have herror : k * (1 + 1 / 2000) * roundoff * r = 2001 / 2000 * (k * roundoff) * r := by ring
  rw [hfactor] at hpow
  rw [herror] at h
  generalize k * roundoff = x at hpow hsmall hnonneg h
  obtain ⟨hlow, hhigh⟩ := abs_le.mp h
  have hlow : (1 - 2001 / 2000 * x) * r ≤ v := by linarith
  have hv : 0 ≤ v := (mul_nonneg (by linarith) hr.le).trans hlow
  constructor
  · calc r = 1 * r := (one_mul r).symm
      _ ≤ (1 - 2001 / 2000 * x) * (1 + 1001 / 1000 * x) * r := by
          gcongr
          nlinarith
      _ = (1 - 2001 / 2000 * x) * r * (1 + 1001 / 1000 * x) := by ring
      _ ≤ v * (1 + 1001 / 1000 * x) := by gcongr
      _ ≤ v * grain ^ k := by gcongr
  · calc v ≤ r * (1 + 2001 / 2000 * x) := by linarith
      _ ≤ r * grain ^ k := by
          gcongr
          linarith

end Within

section

variable {m : Nat} {q : Int} {r v : ℚ}

theorem RoundedTo.pos (h : RoundedTo r v) : 0 < r := by
  obtain ⟨m, q, hp, h, -⟩ := h
  exact (two_zpow_pos _).trans (h.half_least_lt hp.shaped)

theorem RoundedTo.least_le (h : RoundedTo r v) : 2 ^ (-1074 : Int) ≤ v := by
  obtain ⟨m, q, hp, -, rfl⟩ := h
  have hm : (1 : ℚ) ≤ m := by exact_mod_cast hp.pos
  calc (2 : ℚ) ^ (-1074 : Int) ≤ 2 ^ q := zpow_le_zpow_right₀ (by norm_num) hp.least
    _ ≤ m * 2 ^ q := le_mul_of_one_le_left (two_zpow_pos q).le hm

theorem Rounds.bounds (h : Rounds m q r) : (m - 1 / 2) * 2 ^ q ≤ r ∧ r ≤ (m + 1 / 2) * 2 ^ q := by
  obtain ⟨hlow, hhigh⟩ := h.nearestEven.bounds
  exact ⟨(le_div_iff₀ (two_zpow_pos q)).mp hlow, (div_le_iff₀ (two_zpow_pos q)).mp hhigh⟩

theorem Rounds.half (h : Rounds m q r) : |m * 2 ^ q - r| ≤ 2 ^ q / 2 := by
  obtain ⟨hlow, hhigh⟩ := h.bounds
  rw [abs_le]
  constructor <;> linarith

/-- The error of a rounding to a number that is not subnormal. -/
theorem Rounds.error (h : Rounds m q r) (hm : 2 ^ 52 ≤ m) :
    |m * 2 ^ q - r| ≤ (1 + 1 / 2000) * roundoff * r := by
  have hpos := two_zpow_pos q
  have hm : (2 : ℚ) ^ 52 ≤ m := by exact_mod_cast hm
  have hlong : 1 / 2 ≤ (1 + 1 / 2000) * roundoff * ((2 : ℚ) ^ 52 - 1 / 2) := by
    norm_num [roundoff]
  have hu := roundoff_pos
  calc |m * 2 ^ q - r| ≤ 1 / 2 * 2 ^ q := by linarith [h.half]
    _ ≤ (1 + 1 / 2000) * roundoff * (2 ^ 52 - 1 / 2) * 2 ^ q :=
        mul_le_mul_of_nonneg_right hlong hpos.le
    _ ≤ (1 + 1 / 2000) * roundoff * (m - 1 / 2) * 2 ^ q := by gcongr
    _ = (1 + 1 / 2000) * roundoff * ((m - 1 / 2) * 2 ^ q) := mul_assoc _ _ _
    _ ≤ (1 + 1 / 2000) * roundoff * r := by
        gcongr
        exact h.bounds.1

/-- The error of a rounding. -/
theorem RoundedTo.near (h : RoundedTo r v) :
    |v - r| ≤ (1 + 1 / 2000) * roundoff * r + 2 ^ (-1075 : Int) := by
  have hr := h.pos
  have hu := roundoff_pos
  obtain ⟨m, q, hp, h, rfl⟩ := h
  rcases hp.least.lt_or_eq with hq | rfl
  · exact (h.error (hp.normal hq)).trans (le_add_of_nonneg_right (two_zpow_pos _).le)
  · have hhalf := h.half
    rw [half_least]
    have hsmall : 0 ≤ (1 + 1 / 2000) * roundoff * r := by positivity
    linarith

/-- A rounding of what is not much below the first normal number. -/
theorem RoundedTo.within {k : Nat} (h : RoundedTo r v) (hk : 1 ≤ k) (hk' : k ≤ 10)
    (hr : 2 ^ (-1022 : Int) ≤ k * r) : Within k v r := by
  have hpos := h.pos
  have hu := roundoff_pos
  have hk : (1 : ℚ) ≤ k := by exact_mod_cast hk
  refine .of_abs_le hk' hpos ?_
  obtain ⟨m, q, hp, h, rfl⟩ := h
  rcases hp.least.lt_or_eq with hq | rfl
  · calc |m * 2 ^ q - r| ≤ (1 + 1 / 2000) * roundoff * r := h.error (hp.normal hq)
      _ ≤ k * ((1 + 1 / 2000) * roundoff * r) := le_mul_of_one_le_left (by positivity) hk
      _ = k * (1 + 1 / 2000) * roundoff * r := by ring
  · calc |(m : ℚ) * 2 ^ (-1074 : Int) - r| ≤ 2 ^ (-1074 : Int) / 2 := h.half
      _ = roundoff * 2 ^ (-1022 : Int) := by
          rw [roundoff, ← zpow_add₀ (by norm_num)]
          show _ = (2 : ℚ) ^ (-1075 : Int)
          rw [half_least]
          ring
      _ ≤ roundoff * (k * r) := mul_le_mul_of_nonneg_left hr hu.le
      _ = k * roundoff * r := by ring
      _ ≤ k * (1 + 1 / 2000) * roundoff * r := by
          gcongr
          linarith

end

end DeskCalculator.Binary64
