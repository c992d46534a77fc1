import DeskCalculator.Proofs.DigitCount
import DeskCalculator.Proofs.Ordering

/-!
# DeskCalculator.Proofs.FewestDigits — what is written has the fewest digits, and is the nearest

Of all the decimals that are read as a number, those with the fewest digits are looked for, and of
these the nearest to the number; of two that are equally near, the larger one.  There is just one
such decimal, and the search finds it.

The search looks only at points near the number, on one grid for each number of digits.  No decimal
is missed by that: one with few digits is on the grid, or there is a power of ten between it and the
number, which is on each of the grids.

* `Fewest`: what is looked for; `Fewest.unique`: there is one at most.
* `onGrid_nearest`: what is found on a grid is the nearest point of it.
* `shortest_fewest`: what the search finds is what is looked for.
-/

namespace DeskCalculator.Decimal

open Binary64

variable {m : Nat} {q g : Int}

theorem nearer_of_below {a b v : ℚ} (h : a < b) (hb : b ≤ v) : |b - v| < |a - v| := by
  rw [abs_of_nonpos (by linarith), abs_of_nonpos (by linarith)]
  linarith

theorem nearer_of_above {a b v : ℚ} (h : b < a) (hb : v ≤ b) : |b - v| < |a - v| := by
  rw [abs_of_nonneg (by linarith), abs_of_nonneg (by linarith)]
  linarith

/-! ## One grid -/

section

variable (hm : 0 < m)
include hm

/-- Where nothing is found on a grid, no point of it is rounded to the number. -/
theorem not_rounds_of_none {tie : Tie} (h : onGrid tie m q g = none) (n : Nat) :
    ¬ Rounds m q (n * 10 ^ g) := by
  obtain ⟨d, hbelow, habove, hspec⟩ := onGrid_spec tie hm q g
  have hten : (0 : ℚ) < 10 ^ g := zpow_pos (by norm_num) g
  rw [h] at hspec
  intro hn
  cases hspec with
  | neither below above =>
    rcases Nat.lt_or_ge d n with hd | hd
    · have hcast : ((d + 1 : Nat) : ℚ) ≤ n := by exact_mod_cast hd
      exact above ((Rounds.self m q).between hn habove.le (mul_le_mul_of_nonneg_right hcast hten.le))
    · have hcast : (n : ℚ) ≤ d := by exact_mod_cast hd
      exact below (hn.between (Rounds.self m q) (mul_le_mul_of_nonneg_right hcast hten.le) hbelow)

/-- What is found on a grid is nearer than any other point of it that is rounded to the number, or
it is equally near and the larger one. -/
theorem onGrid_nearest {n k : Nat} (h : onGrid .up m q g = some n) (hk : Rounds m q (k * 10 ^ g)) :
    |(n * 10 ^ g : ℚ) - m * 2 ^ q| < |(k * 10 ^ g : ℚ) - m * 2 ^ q| ∨
      |(n * 10 ^ g : ℚ) - m * 2 ^ q| = |(k * 10 ^ g : ℚ) - m * 2 ^ q| ∧ k ≤ n := by
  obtain ⟨d, hbelow, habove, hspec⟩ := onGrid_spec .up hm q g
  have hten : (0 : ℚ) < 10 ^ g := zpow_pos (by norm_num) g
  have hself := Rounds.self m q
  have hnext : ((d + 1 : Nat) * 10 ^ g : ℚ) = d * 10 ^ g + 10 ^ g := by
    push_cast
    ring
  have hmiddle : ((2 * d + 1) * 10 ^ g : ℚ) = 2 * (d * 10 ^ g) + 10 ^ g := by ring
  have hstep {i j : Nat} (hij : i < j) : (i * 10 ^ g : ℚ) < j * 10 ^ g :=
    mul_lt_mul_of_pos_right (by exact_mod_cast hij) hten
  rw [h] at hspec
  cases hspec with
  | lower rounds nearer =>
    rcases lt_trichotomy k n with hkd | rfl | hkd
    · exact .inl (nearer_of_below (hstep hkd) hbelow)
    · exact .inr ⟨rfl, le_rfl⟩
    · have hle : ((n + 1 : Nat) * 10 ^ g : ℚ) ≤ k * 10 ^ g :=
        mul_le_mul_of_nonneg_right (by exact_mod_cast hkd) hten.le
      rcases nearer (hself.between hk habove.le hle) with hnear | ⟨-, htie⟩
      · left
        rw [abs_of_nonpos (by linarith), abs_of_nonneg (by linarith)]
        linarith
      · cases htie
  | upper rounds nearer =>
    rcases lt_trichotomy k (d + 1) with hkd | rfl | hkd
    · have hle : (k * 10 ^ g : ℚ) ≤ d * 10 ^ g :=
        mul_le_mul_of_nonneg_right (by exact_mod_cast Nat.le_of_lt_succ hkd) hten.le
      have hnear := nearer (hk.between hself hle hbelow)
      have hdistance : |((d + 1 : Nat) * 10 ^ g : ℚ) - m * 2 ^ q| ≤ |(k * 10 ^ g : ℚ) - m * 2 ^ q| := by
        rw [abs_of_nonneg (by linarith), abs_of_nonpos (by linarith)]
        linarith
      exact hdistance.lt_or_eq.imp_right fun heq => ⟨heq, hkd.le⟩
    · exact .inr ⟨rfl, le_rfl⟩
    · exact .inl (nearer_of_above (hstep hkd) habove.le)

end

/-! ## All decimals -/

/-- A decimal is a point of the grid on which its own digits end. -/
theorem toRat_eq_grid {d : Decimal} {j : Nat} {point : Int} (hpoint : d.point = point)
    (hlength : d.chars.length ≤ j + 1) :
    d.toRat = (d.digits * 10 ^ (j + 1 - d.chars.length) : Nat) * 10 ^ (point - (j + 1)) := by
  have hexponent : d.exponent = (j + 1 - d.chars.length : Nat) + (point - (j + 1)) := by
    rw [← hpoint, Decimal.point]
    omega
  rw [toRat, hexponent, zpow_add₀ (by norm_num), zpow_natCast]
  push_cast
  ring

theorem ten_zpow_grid (point : Int) (j : Nat) :
    (10 : ℚ) ^ (point - 1) = (10 ^ j : Nat) * 10 ^ (point - (j + 1)) ∧
      (10 : ℚ) ^ point = (10 ^ (j + 1) : Nat) * 10 ^ (point - (j + 1)) := by
  have hten : (10 : ℚ) ≠ 0 := by norm_num
  push_cast
  rw [← zpow_natCast, ← zpow_natCast, ← zpow_add₀ hten, ← zpow_add₀ hten]
  refine ⟨?_, ?_⟩
  · congr 1
    omega
  · congr 1
    push_cast
    omega

/-- A decimal of few digits that is rounded to the number is a point of the grid, or there is a point
of the grid that is nearer: one of the two powers of ten between which the number lies. -/
theorem exists_grid_point (hm : 0 < m) {d : Decimal} {j : Nat} (hd : Rounds m q d.toRat)
    (hlength : d.chars.length ≤ j + 1) : ∃ n : Nat,
      Rounds m q (n * 10 ^ ((exact m q).point - (j + 1))) ∧
        ((n * 10 ^ ((exact m q).point - (j + 1)) : ℚ) = d.toRat ∨
          |(n * 10 ^ ((exact m q).point - (j + 1)) : ℚ) - m * 2 ^ q| < |d.toRat - m * 2 ^ q|) := by
  obtain ⟨hlow, hhigh⟩ := decade hm q
  generalize (exact m q).point = point at hlow hhigh ⊢
  obtain ⟨hfirst, hlast⟩ := ten_zpow_grid point j
  have hself := Rounds.self m q
  have hpos : 0 < d.digits := by
    by_contra hzero
    obtain hzero : d.digits = 0 := by omega
    have hrat : 0 < d.toRat := hd.pos hm
    simp [toRat, hzero] at hrat
  rcases lt_trichotomy d.point point with hpoint | hpoint | hpoint
  · -- the decimal lies below the decade of the number
    have hbelow : d.toRat < 10 ^ (point - 1) :=
      d.toRat_lt_point.trans_le (zpow_le_zpow_right₀ (by norm_num) (by omega))
    refine ⟨10 ^ j, ?_, .inr ?_⟩
    · rw [← hfirst]
      exact hd.between hself hbelow.le hlow
    · rw [← hfirst]
      exact nearer_of_below hbelow hlow
  · have hgrid := toRat_eq_grid hpoint hlength
    exact ⟨_, hgrid ▸ hd, .inl hgrid.symm⟩
  · -- the decimal lies above the decade of the number
    have habove : (10 : ℚ) ^ point ≤ d.toRat :=
      (zpow_le_zpow_right₀ (by norm_num) (by omega)).trans (point_le_toRat hpos)
    refine ⟨10 ^ (j + 1), ?_, ?_⟩
    · rw [← hlast]
      exact hself.between hd hhigh.le habove
    · rw [← hlast]
      rcases habove.eq_or_lt with heq | hlt
      · exact .inl heq
      · exact .inr (nearer_of_above hlt hhigh.le)

/-- The decimal that is to be written for the number `v`, where `Reads` tells which decimals are read
as it: one of them, with no zero at the end, with the fewest digits of all, and the nearest of those
with as many digits; of two that are equally near, the larger one. -/
structure Fewest (Reads : Decimal → Prop) (v : ℚ) (d : Decimal) : Prop where
  reads : Reads d
  trimmed : d.digits % 10 ≠ 0
  fewest : ∀ d', Reads d' → d.chars.length ≤ d'.chars.length
  nearest : ∀ d', Reads d' → d'.chars.length = d.chars.length → |d.toRat - v| ≤ |d'.toRat - v|
  upward : ∀ d', Reads d' → d'.chars.length = d.chars.length → |d.toRat - v| = |d'.toRat - v| →
    d'.toRat ≤ d.toRat

theorem digits_pos_of_trimmed {d : Decimal} (h : d.digits % 10 ≠ 0) : 0 < d.digits := by
  omega

/-- Decimals of the same value and with as many digits are the same. -/
theorem eq_of_toRat_eq {d d' : Decimal} (hd : 0 < d.digits) (hd' : 0 < d'.digits)
    (hlength : d.chars.length = d'.chars.length) (h : d.toRat = d'.toRat) : d = d' := by
  have hpoint : d.point = d'.point := by
    have hlow := (point_le_toRat hd).trans_lt (h ▸ d'.toRat_lt_point)
    have hhigh := (point_le_toRat hd').trans_lt (h ▸ d.toRat_lt_point)
    have := (zpow_lt_zpow_iff_right₀ (by norm_num : (1 : ℚ) < 10)).mp hlow
    have := (zpow_lt_zpow_iff_right₀ (by norm_num : (1 : ℚ) < 10)).mp hhigh
    omega
  have hexponent : d.exponent = d'.exponent := by
    rw [Decimal.point, Decimal.point, hlength] at hpoint
    omega
  rw [toRat, toRat, hexponent] at h
  have hdigits : d.digits = d'.digits := by
    exact_mod_cast mul_right_cancel₀ (zpow_pos (by norm_num) _).ne' h
  cases d
  cases d'
  exact congrArg₂ _ hdigits hexponent

/-- There is one such decimal at most. -/
theorem Fewest.unique {Reads : Decimal → Prop} {v : ℚ} {d d' : Decimal} (h : Fewest Reads v d)
    (h' : Fewest Reads v d') : d = d' := by
  have hlength : d.chars.length = d'.chars.length :=
    le_antisymm (h.fewest d' h'.reads) (h'.fewest d h.reads)
  have hdistance := le_antisymm (h.nearest d' h'.reads hlength.symm) (h'.nearest d h.reads hlength)
  have hvalue := le_antisymm (h'.upward d h.reads hlength hdistance.symm)
    (h.upward d' h'.reads hlength.symm hdistance)
  exact eq_of_toRat_eq (digits_pos_of_trimmed h.trimmed) (digits_pos_of_trimmed h'.trimmed) hlength
    hvalue

/-- Zeros at the end are all dropped, if there are not too many. -/
theorem trim_trimmed {fuel : Nat} {d : Decimal} (hpos : 0 < d.digits) (h : d.digits ≤ 10 ^ fuel) :
    (trim fuel d).digits % 10 ≠ 0 := by
  induction fuel generalizing d with
  | zero =>
    show d.digits % 10 ≠ 0
    omega
  | succ fuel ih =>
    rw [pow_succ] at h
    unfold trim
    split
    · exact ih (show 0 < d.digits / 10 by omega) (show d.digits / 10 ≤ 10 ^ fuel by omega)
    · assumption

section

variable (hm : 0 < m) {n digits : Nat} {d : Decimal} (hd : Rounds m q d.toRat)
include hm hd

/-- A decimal with fewer digits would have left a point on a grid that was tried before. -/
theorem le_length_of_none {tie : Tie}
    (hnone : ∀ j < n, onGrid tie m q ((exact m q).point - (j + 1)) = none) :
    n + 1 ≤ d.chars.length := by
  by_contra hless
  obtain ⟨j, hj⟩ : ∃ j, d.chars.length = j + 1 :=
    ⟨_, (Nat.sub_add_cancel d.length_chars_pos).symm⟩
  obtain ⟨k, hk, -⟩ := exists_grid_point hm hd hj.le
  exact not_rounds_of_none hm (hnone j (by omega)) k hk

/-- What is found with `n + 1` digits is nearer than any other decimal with as many, or it is equally
near and not smaller. -/
theorem found_nearest (hfound : onGrid .up m q ((exact m q).point - (n + 1)) = some digits)
    (hlength : d.chars.length ≤ n + 1) :
    |(digits * 10 ^ ((exact m q).point - (n + 1)) : ℚ) - m * 2 ^ q| < |d.toRat - m * 2 ^ q| ∨
      |(digits * 10 ^ ((exact m q).point - (n + 1)) : ℚ) - m * 2 ^ q| = |d.toRat - m * 2 ^ q| ∧
        d.toRat ≤ digits * 10 ^ ((exact m q).point - (n + 1)) := by
  obtain ⟨k, hk, hpoint⟩ := exists_grid_point hm hd hlength
  have hchosen := onGrid_nearest hm hfound hk
  rcases hpoint with heq | hlt
  · rw [heq] at hchosen
    refine hchosen.imp_right fun h => ⟨h.1, ?_⟩
    have hcast : (k : ℚ) ≤ digits := by exact_mod_cast h.2
    rw [← heq]
    exact mul_le_mul_of_nonneg_right hcast (zpow_pos (by norm_num) _).le
  · left
    rcases hchosen with h | ⟨h, -⟩
    · exact h.trans hlt
    · exact h.trans_lt hlt

end

/-- **The search finds the decimal that is to be written.** -/
theorem shortest_fewest (hp : Proper m q) :
    Fewest (fun d => Rounds m q d.toRat) (m * 2 ^ q) (shortest .up m q) := by
  obtain ⟨n, digits, hn, hfound, hnone, hshortest⟩ := shortest_found .up hp
  obtain ⟨hpos, hrounds⟩ := onGrid_rounds hp.pos hfound
  have hdigits := found_digits_le hp.pos hfound
  have hvalue : (shortest .up m q).toRat = digits * 10 ^ ((exact m q).point - (n + 1)) := by
    rw [hshortest]
    exact trim_toRat _ _
  have hreads : Rounds m q (shortest .up m q).toRat := hvalue ▸ hrounds
  have hlength : (shortest .up m q).chars.length = n + 1 := by
    refine le_antisymm ?_ (le_length_of_none hp.pos hreads hnone)
    rw [length_chars_le_iff _ n.succ_pos, hshortest]
    exact trim_digits_lt n.succ_pos hdigits
  refine ⟨hreads, ?_, ?_, ?_, ?_⟩
  · rw [hshortest]
    exact trim_trimmed hpos (hdigits.trans (Nat.pow_le_pow_right (by norm_num) hn))
  · intro d hd
    rw [hlength]
    exact le_length_of_none hp.pos hd hnone
  · intro d hd hd'
    rw [hvalue]
    rcases found_nearest hp.pos hd hfound (hd'.trans hlength).le with h | ⟨h, -⟩
    · exact h.le
    · exact h.le
  · intro d hd hd' hdistance
    rw [hvalue] at hdistance ⊢
    rcases found_nearest hp.pos hd hfound (hd'.trans hlength).le with h | ⟨-, h⟩
    · exact absurd hdistance h.ne
    · exact h

end DeskCalculator.Decimal
