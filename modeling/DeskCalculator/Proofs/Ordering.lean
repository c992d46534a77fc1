import DeskCalculator.Proofs.Conversion

/-!
# DeskCalculator.Proofs.Ordering — positive numbers are ordered as the rationals that they are

Two positive numbers are compared by their exponents, and by their significands where the exponents
are the same.  The significand of a number that is not subnormal has all of its bits, so that this
is the order of the rationals.  Rounding keeps it: of two rationals, the one that is rounded to the
smaller number is the smaller one.

* `Denotes.lt_iff`, `Denotes.le_iff`: the comparisons of positive numbers.
* `Rounds.unique`, `Rounds.between`: the intervals of the numbers are disjoint, and without holes.
* `Rounds.lt_of_lt`, `RoundedTo.mono`: rounding keeps the order.
* `IsNat.le_iff`: the comparison of natural numbers, zeros included.
-/

namespace DeskCalculator.Binary64

open Float.Model.UnpackedFloat

section

variable {m m' : Nat} {q q' : Int} {x y : Float} {a b : ℚ}

/-! ## Comparison -/

/-- A number with a smaller exponent is smaller. -/
theorem value_lt_of_exponent_lt (hp : Proper m q) (hp' : Proper m' q') (h : q < q') :
    (m : ℚ) * 2 ^ q < m' * 2 ^ q' := by
  have hbelow : (m : ℚ) < 2 ^ 53 := by exact_mod_cast hp.below
  have hlong : (2 : ℚ) ^ 52 ≤ m' := by exact_mod_cast hp'.normal (hp.least.trans_lt h)
  calc (m : ℚ) * 2 ^ q < 2 ^ 53 * 2 ^ q := mul_lt_mul_of_pos_right hbelow (two_zpow_pos q)
    _ = 2 ^ 52 * 2 ^ (q + 1) := by
        rw [zpow_add₀ (by norm_num), zpow_one]
        ring
    _ ≤ 2 ^ 52 * 2 ^ q' := by
        have hstep : (2 : ℚ) ^ (q + 1) ≤ 2 ^ q' := zpow_le_zpow_right₀ (by norm_num) h
        linarith
    _ ≤ m' * 2 ^ q' := mul_le_mul_of_nonneg_right hlong (two_zpow_pos q').le

theorem value_lt_iff_of_exponent_eq (q : Int) : (m : ℚ) * 2 ^ q < m' * 2 ^ q ↔ m < m' := by
  rw [mul_lt_mul_iff_left₀ (two_zpow_pos q), Nat.cast_lt]

theorem compare_value (hp : Proper m q) (hp' : Proper m' q') :
    (compare q q').then (compare m m') = compare ((m : ℚ) * 2 ^ q) (m' * 2 ^ q') := by
  rcases lt_trichotomy q q' with h | rfl | h
  · rw [compare_lt_iff_lt.mpr h, compare_lt_iff_lt.mpr (value_lt_of_exponent_lt hp hp' h)]
    rfl
  · rw [compare_eq_iff_eq.mpr rfl]
    show compare m m' = _
    rcases lt_trichotomy m m' with h | rfl | h
    · rw [compare_lt_iff_lt.mpr h,
        compare_lt_iff_lt.mpr ((value_lt_iff_of_exponent_eq q).mpr h)]
    · rw [compare_eq_iff_eq.mpr rfl, compare_eq_iff_eq.mpr rfl]
    · rw [compare_gt_iff_gt.mpr h,
        compare_gt_iff_gt.mpr ((value_lt_iff_of_exponent_eq q).mpr h)]
  · rw [compare_gt_iff_gt.mpr h, compare_gt_iff_gt.mpr (value_lt_of_exponent_lt hp' hp h)]
    rfl

theorem Denotes.compare_eq (hx : Denotes x a) (hy : Denotes y b) :
    (parts x).compare (parts y) = some (compare a b) := by
  obtain ⟨m, q, hp, hx, rfl⟩ := hx
  obtain ⟨m', q', hp', hy, rfl⟩ := hy
  rw [hx, hy]
  exact congrArg some (compare_value hp hp')

theorem lt_iff_compare : x < y ↔ ((parts x).compare (parts y) == some .lt) = true :=
  decide_eq_true_iff

theorem le_iff_compare : x ≤ y ↔ ((parts x).compare (parts y)).any (·.isLE) = true :=
  decide_eq_true_iff

theorem Denotes.lt_iff (hx : Denotes x a) (hy : Denotes y b) : x < y ↔ a < b := by
  rw [lt_iff_compare, hx.compare_eq hy, beq_iff_eq, Option.some.injEq, compare_lt_iff_lt]

theorem Denotes.le_iff (hx : Denotes x a) (hy : Denotes y b) : x ≤ y ↔ a ≤ b := by
  rw [le_iff_compare, hx.compare_eq hy, Option.any_some, ← compare_le_iff_le, Ordering.isLE_iff_ne_gt]

/-- A number with a minus sign is below zero. -/
theorem neg_of_parts {hm : 0 < m} (h : parts x = .finite .negative m q hm) : x < 0 := by
  rw [lt_iff_compare, h, zero_literal, parts_zero]
  rfl

theorem parts_abs {s : Sign} {hm : 0 < m} (hp : Proper m q) (h : parts x = .finite s m q hm) :
    parts x.abs = .finite .positive m q hm := by
  show parts (ofParts (abs (parts x))) = _
  rw [h]
  exact parts_ofParts (.finite .positive hp)

end

/-! ## Natural numbers -/

section

variable {x y : Float} {a : ℚ} {m n : Nat}

theorem Denotes.pos (h : Denotes x a) : 0 < a := by
  obtain ⟨m, q, hp, -, rfl⟩ := h
  have hm : (0 : ℚ) < m := by exact_mod_cast hp.pos
  exact mul_pos hm (two_zpow_pos q)

theorem zero_le_zero (s t : Sign) : zero s ≤ zero t := by
  rw [le_iff_compare, parts_zero, parts_zero]
  rfl

theorem Denotes.zero_le (h : Denotes x a) (s : Sign) : zero s ≤ x := by
  obtain ⟨m, q, hp, hparts, -⟩ := h
  rw [le_iff_compare, parts_zero, hparts]
  rfl

theorem Denotes.not_le_zero (h : Denotes x a) (s : Sign) : ¬ x ≤ zero s := by
  obtain ⟨m, q, hp, hparts, -⟩ := h
  rw [le_iff_compare, parts_zero, hparts]
  exact Bool.false_ne_true

theorem Denotes.le_infinity (h : Denotes x a) : x ≤ infinity .positive := by
  obtain ⟨m, q, hp, hparts, -⟩ := h
  rw [le_iff_compare, parts_infinity, hparts]
  rfl

theorem denotes_natural (hn : 0 < n) (hshort : n < 2 ^ 53) : Denotes (nearest .positive n 0) n := by
  obtain ⟨m, q, hp, hparts, -, hvalue⟩ :=
    parts_nearest .positive (e := 0) hn hshort (by norm_num) (by norm_num)
  exact ⟨m, q, hp, hparts, by simpa using hvalue.symm⟩

theorem denotes_one : Denotes 1 1 := by
  have hone : (1 : Float) = nearest .positive 1 0 := by decide +kernel
  simpa [hone] using denotes_natural one_pos (by norm_num)

/-- `x` is the natural number `n`; both zeros are the number zero. -/
def IsNat (x : Float) (n : Nat) : Prop := n = 0 ∧ (∃ s, x = zero s) ∨ Denotes x n

theorem IsNat.le_iff (hx : IsNat x m) (hy : IsNat y n) : x ≤ y ↔ m ≤ n := by
  rcases hx with ⟨rfl, s, rfl⟩ | hx <;> rcases hy with ⟨rfl, t, rfl⟩ | hy
  · exact iff_of_true (zero_le_zero s t) le_rfl
  · exact iff_of_true (hy.zero_le s) (Nat.zero_le n)
  · have hm : 0 < m := by exact_mod_cast hx.pos
    exact iff_of_false (hx.not_le_zero t) (by omega)
  · rw [hx.le_iff hy, Nat.cast_le]

end

/-! ## Intervals -/

namespace Rounds

variable {m M : Nat} {q Q : Int} {r r' s : ℚ}

/-- The interval of a number has no holes. -/
theorem between (h : Rounds m q r) (h' : Rounds m q r') (hlow : r ≤ s) (hhigh : s ≤ r') :
    Rounds m q s := by
  have hpos := two_zpow_pos q
  have hlow' : r / 2 ^ q ≤ s / 2 ^ q := (div_le_div_iff_of_pos_right hpos).mpr hlow
  have hhigh' : s / 2 ^ q ≤ r' / 2 ^ q := (div_le_div_iff_of_pos_right hpos).mpr hhigh
  refine ⟨?_, ?_⟩
  · rcases h.low with hl | ⟨hl, heven⟩
    · exact .inl (hl.trans_le hlow')
    · rw [← hl] at hlow'
      exact hlow'.lt_or_eq.imp_right fun heq => ⟨heq, heven⟩
  · rcases h'.high with hh | ⟨hh, heven⟩
    · exact .inl (hhigh'.trans_lt hh)
    · rw [hh] at hhigh'
      exact hhigh'.lt_or_eq.imp_right fun heq => ⟨heq, heven⟩

/-- The intervals of two numbers have nothing in common: the division of naturals that is rounded
to the one would be rounded to the other. -/
theorem unique (hp : Shaped m q) (hP : Shaped M Q) (h : Rounds m q r) (h' : Rounds M Q r) :
    m = M ∧ q = Q := by
  have hr : 0 < r := (two_zpow_pos _).trans (h.half_least_lt hp)
  have hnum : 0 < r.num.toNat := by
    have := Rat.num_pos.mpr hr
    omega
  have hquotient : (r.num.toNat * 2 ^ (0 : Int) / (r.den * 2 ^ (0 : Int)) : ℚ) = r := by
    have hcast : ((r.num.toNat : Nat) : ℚ) = r.num := by
      exact_mod_cast Int.toNat_of_nonneg (Rat.num_pos.mpr hr).le
    rw [zpow_zero, mul_one, mul_one, hcast, Rat.num_div_den]
  rw [← hquotient] at h h'
  have hm : div .binary64 (.finite .positive _ 0 hnum) (.finite .positive _ 0 r.den_pos) =
      .finite _ m q hp.pos := div_eq hp h
  rw [div_eq hP h'] at hm
  cases hm
  exact ⟨rfl, rfl⟩

/-- Rounding keeps the order. -/
theorem lt_of_lt (hp : Shaped m q) (hP : Shaped M Q) (h : Rounds m q r) (h' : Rounds M Q r')
    (hlt : (m : ℚ) * 2 ^ q < M * 2 ^ Q) : r < r' := by
  by_contra hle
  have hself := Rounds.self m q
  have hself' := Rounds.self M Q
  -- the larger number, or else `r`, would belong to both of them
  have hboth : ∃ t, Rounds m q t ∧ Rounds M Q t := by
    rcases le_or_gt ((M : ℚ) * 2 ^ Q) r with hr | hr
    · exact ⟨_, hself.between h hlt.le hr, hself'⟩
    · exact ⟨r, h, h'.between hself' (not_lt.mp hle) hr.le⟩
  obtain ⟨t, ht, ht'⟩ := hboth
  obtain ⟨rfl, rfl⟩ := ht.unique hp hP ht'
  exact lt_irrefl _ hlt

end Rounds

theorem Proper.unique {m m' : Nat} {q q' : Int} (hp : Proper m q) (hp' : Proper m' q')
    (h : (m : ℚ) * 2 ^ q = m' * 2 ^ q') : m = m' ∧ q = q' :=
  (Rounds.self m q).unique hp.shaped hp'.shaped (h ▸ Rounds.self m' q')

/-- A number is rounded to itself. -/
theorem Proper.roundedTo {m : Nat} {q : Int} (hp : Proper m q) :
    RoundedTo (m * 2 ^ q) (m * 2 ^ q) := ⟨m, q, hp, .self m q, rfl⟩

theorem Denotes.roundedTo_self {x : Float} {a : ℚ} (h : Denotes x a) : RoundedTo a a := by
  obtain ⟨m, q, hp, -, rfl⟩ := h
  exact hp.roundedTo

/-- A positive number is told from the rational that it is. -/
theorem Denotes.unique {x y : Float} {a : ℚ} (hx : Denotes x a) (hy : Denotes y a) : x = y := by
  obtain ⟨m, q, hp, hx, rfl⟩ := hx
  obtain ⟨m', q', hp', hy, hvalue⟩ := hy
  obtain ⟨rfl, rfl⟩ := hp.unique hp' hvalue
  exact eq_of_parts_eq (hx.trans hy.symm)

section

variable {r r' v v' : ℚ} {x : Float}

/-- What a rational is rounded to is a number, and is rounded to itself. -/
theorem RoundedTo.self (h : RoundedTo r v) : RoundedTo v v := by
  obtain ⟨m, q, hp, -, rfl⟩ := h
  exact hp.roundedTo

/-- Rounding keeps the order. -/
theorem RoundedTo.mono (h : RoundedTo r v) (h' : RoundedTo r' v') (hle : r ≤ r') : v ≤ v' := by
  obtain ⟨m, q, hp, hrounds, rfl⟩ := h
  obtain ⟨m', q', hp', hrounds', rfl⟩ := h'
  by_contra hlt
  exact absurd hle (not_le.mpr (hrounds'.lt_of_lt hp'.shaped hp.shaped hrounds (not_le.mp hlt)))

theorem RoundedTo.unique (h : RoundedTo r v) (h' : RoundedTo r v') : v = v' :=
  le_antisymm (h.mono h' le_rfl) (h'.mono h le_rfl)

/-- Within the range the nearest number is the one that is rounded to. -/
theorem Nearest.roundedTo (h : Nearest r x) (hrange : InRange r) :
    ∃ v, Denotes x v ∧ RoundedTo r v := by
  cases h with
  | zero tiny => exact absurd hrange.1 (not_lt.mpr tiny)
  | @finite m q hp rounds => exact ⟨_, denotes_ofParts hp, m, q, hp, rounds, rfl⟩
  | infinity large => exact absurd hrange.2 (not_lt.mpr large)

/-- Beyond the range the nearest number is the infinity. -/
theorem Nearest.eq_infinity (h : Nearest r x) (hlarge : tooLarge ≤ r) :
    x = Binary64.infinity .positive := by
  cases h with
  | zero tiny =>
    have hone : (1 : ℚ) ≤ tooLarge := (one_le_pow₀ (by norm_num)).trans ten_pow_lt_tooLarge.le
    linarith [three_mul_half_least_lt, least_normal_le, two_zpow_pos (-1075)]
  | @finite m q hp rounds => exact absurd (rounds.lt_tooLarge hp) (not_lt.mpr hlarge)
  | infinity large => rfl

end

/-- What is nearest to a number is told by the interval. -/
theorem nearest_ofParts_iff {m : Nat} {q : Int} (hp : Proper m q) {r : ℚ} :
    Nearest r (ofParts (.finite .positive m q hp.pos)) ↔ Rounds m q r := by
  constructor
  · intro h
    generalize hx : ofParts (.finite .positive m q hp.pos) = x at h
    have hparts : parts x = .finite .positive m q hp.pos := hx ▸ parts_ofParts (.finite .positive hp)
    cases h with
    | zero tiny =>
      rw [parts_zero] at hparts
      cases hparts
    | infinity large =>
      rw [parts_infinity] at hparts
      cases hparts
    | @finite m' q' hp' rounds =>
      rw [parts_ofParts (.finite .positive hp')] at hparts
      cases hparts
      exact rounds
  · exact .finite hp

end DeskCalculator.Binary64
