import DeskCalculator.Proofs.ShortestDigits

/-!
# DeskCalculator.Proofs.DigitCount — how many digits are written

Seventeen digits are always enough: two neighbours on the grid of the seventeenth digit are less far
apart than the ends of the interval of the number, so that one of them lies in it.

* `shortest_digits_lt`: what is written has at most seventeen digits.
-/

namespace DeskCalculator.Decimal

open Binary64

theorem length_chars_pos (d : Decimal) : 0 < d.chars.length :=
  List.length_pos_of_ne_nil Nat.toDigits_ne_nil

theorem length_chars_le_iff (d : Decimal) {k : Nat} (hk : 0 < k) :
    d.chars.length ≤ k ↔ d.digits < 10 ^ k :=
  Nat.length_toDigits_le_iff (by norm_num) hk

theorem digits_lt_length (d : Decimal) : d.digits < 10 ^ d.chars.length :=
  (d.length_chars_le_iff d.length_chars_pos).mp le_rfl

/-- A decimal lies below the power of ten that its point tells. -/
theorem toRat_lt_point (d : Decimal) : d.toRat < 10 ^ d.point := by
  have hlt := d.digits_lt_length
  rw [point, zpow_add₀ (by norm_num), zpow_natCast, toRat]
  exact mul_lt_mul_of_pos_right (by exact_mod_cast hlt) (by positivity)

theorem point_le_toRat {d : Decimal} (h : 0 < d.digits) : 10 ^ (d.point - 1) ≤ d.toRat := by
  obtain ⟨k, hk⟩ : ∃ k, d.chars.length = k + 1 :=
    ⟨_, (Nat.sub_add_cancel d.length_chars_pos).symm⟩
  have hle : 10 ^ k ≤ d.digits := by
    rcases Nat.eq_zero_or_pos k with rfl | hpos
    · exact h
    · by_contra hlt
      have hshort := (d.length_chars_le_iff hpos).mpr (Nat.not_le.mp hlt)
      omega
  have hpoint : d.point - 1 = k + d.exponent := by
    rw [point, hk]
    omega
  rw [hpoint, zpow_add₀ (by norm_num), zpow_natCast, toRat]
  exact mul_le_mul_of_nonneg_right (by exact_mod_cast hle) (by positivity)

section

variable {m : Nat} {q g : Int} {tie : Tie}

/-- A point that is missed lies beyond the end of the interval on its own side. -/
theorem le_low_of_missed {r : ℚ} (h : ¬ Rounds m q r) (hr : r ≤ m * 2 ^ q) :
    r / 2 ^ q ≤ if m = 2 ^ 52 ∧ -1074 < q then (m : ℚ) - 1 / 4 else m - 1 / 2 := by
  have hle : r / 2 ^ q ≤ m := (div_le_iff₀ (two_zpow_pos q)).mpr hr
  by_contra hlow
  exact h ⟨.inl (not_le.mp hlow), .inl (by linarith)⟩

theorem high_le_of_missed {r : ℚ} (h : ¬ Rounds m q r) (hr : m * 2 ^ q < r) :
    (m : ℚ) + 1 / 2 ≤ r / 2 ^ q := by
  have hlt : (m : ℚ) < r / 2 ^ q := (lt_div_iff₀ (two_zpow_pos q)).mpr hr
  by_contra hhigh
  refine h ⟨.inl ?_, .inl (not_le.mp hhigh)⟩
  split <;> linarith

/-- A point is found on every grid that is fine enough. -/
theorem onGrid_isSome (hp : Proper m q) (hfine : (10 : ℚ) ^ (g + (16 : Nat)) ≤ m * 2 ^ q) :
    (onGrid tie m q g).isSome := by
  obtain ⟨d, hbelow, habove, hspec⟩ := onGrid_spec tie hp.pos q g
  refine Option.isSome_iff_ne_none.mpr fun hnone => ?_
  rw [hnone] at hspec
  cases hspec with
  | neither below above =>
    -- neither neighbour is in the interval, which is then less wide than the step
    have hlow := le_low_of_missed below hbelow
    have hhigh := high_le_of_missed above habove
    have hstep : ((d + 1 : Nat) * 10 ^ g : ℚ) / 2 ^ q = d * 10 ^ g / 2 ^ q + 10 ^ g / 2 ^ q := by
      push_cast
      ring
    have hnarrow : 10 ^ 16 * ((10 : ℚ) ^ g / 2 ^ q) ≤ m := by
      rw [zpow_add₀ (by norm_num), zpow_natCast] at hfine
      rw [← mul_div_assoc, div_le_iff₀ (two_zpow_pos q), mul_comm]
      exact hfine
    rw [hstep] at hhigh
    split at hlow
    · next hfirst =>
      have hm : (m : ℚ) = 2 ^ 52 := by exact_mod_cast hfirst.1
      rw [hm] at hlow hhigh hnarrow
      linarith
    · have hm : (m : ℚ) < 2 ^ 53 := by exact_mod_cast hp.below
      linarith

/-- What is found has no more digits than the number before the point of the grid. -/
theorem le_of_onGrid {n k : Nat} (hm : 0 < m) (h : onGrid tie m q g = some n)
    (hbelow : m * 2 ^ q < (10 : ℚ) ^ (g + k)) : n ≤ 10 ^ k := by
  obtain ⟨d, hd, -, hspec⟩ := onGrid_spec tie hm q g
  have hlt : (d : ℚ) * 10 ^ g < 10 ^ k * 10 ^ g := by
    rw [add_comm, zpow_add₀ (by norm_num), zpow_natCast] at hbelow
    exact hd.trans_lt hbelow
  have hquotient : d < 10 ^ k := by
    have hcast := lt_of_mul_lt_mul_right hlt (zpow_pos (by norm_num) g).le
    exact_mod_cast hcast
  rw [h] at hspec
  cases hspec with
  | lower rounds nearer => exact hquotient.le
  | upper rounds nearer => exact hquotient

theorem trim_digits_le (fuel : Nat) (d : Decimal) : (trim fuel d).digits ≤ d.digits := by
  induction fuel generalizing d with
  | zero => exact le_rfl
  | succ fuel ih =>
    unfold trim
    split
    · exact (ih _).trans (Nat.div_le_self _ _)
    · exact le_rfl

/-- Where there is one digit too many, the digits behind the first are zeros. -/
theorem trim_digits_lt {d : Decimal} {k : Nat} (hk : 0 < k) (h : d.digits ≤ 10 ^ k) :
    (trim 17 d).digits < 10 ^ k := by
  obtain ⟨j, rfl⟩ := Nat.exists_eq_add_of_lt hk
  rw [zero_add, pow_succ] at h ⊢
  have hpos : 0 < 10 ^ j := by positivity
  unfold trim
  split
  · exact (trim_digits_le 16 _).trans_lt (show d.digits / 10 < 10 ^ j * 10 by omega)
  · next hlast =>
    refine lt_of_le_of_ne h fun heq => ?_
    rw [heq] at hlast
    exact hlast (Nat.mul_mod_left _ _)

/-- A search along the naturals stops at the first place where something is found. -/
theorem findSome?_range {α : Type} {f : Nat → Option α} {n : Nat} {a : α}
    (h : (List.range n).findSome? f = some a) : ∃ k < n, f k = some a ∧ ∀ j < k, f j = none := by
  induction n with
  | zero => cases h
  | succ n ih =>
    rw [List.range_succ, List.findSome?_append] at h
    cases hfirst : (List.range n).findSome? f with
    | some b =>
      rw [hfirst] at h
      obtain ⟨k, hk, hfound, hnone⟩ := ih (hfirst.trans h)
      exact ⟨k, hk.trans n.lt_succ_self, hfound, hnone⟩
    | none =>
      have hlast : f n = some a := by simpa [hfirst] using h
      refine ⟨n, n.lt_succ_self, hlast, fun j hj => ?_⟩
      exact List.findSome?_eq_none_iff.mp hfirst j (List.mem_range.mpr hj)

/-- The number lies in the decade that the point of its exact form tells. -/
theorem decade (hm : 0 < m) (q : Int) : (10 : ℚ) ^ ((exact m q).point - 1) ≤ m * 2 ^ q ∧
    m * 2 ^ q < (10 : ℚ) ^ (exact m q).point := by
  have hwhole := exact_toRat m q
  rw [← hwhole]
  exact ⟨point_le_toRat (exact_digits_pos hm q), toRat_lt_point _⟩

/-- The search finds a point of the first grid on which there is one. -/
theorem shortest_found (tie : Tie) (hp : Proper m q) : ∃ n digits : Nat, n < 17 ∧
    onGrid tie m q ((exact m q).point - (n + 1)) = some digits ∧
    (∀ j < n, onGrid tie m q ((exact m q).point - (j + 1)) = none) ∧
    shortest tie m q = trim 17 ⟨digits, (exact m q).point - (n + 1)⟩ := by
  obtain ⟨hle, -⟩ := decade hp.pos q
  unfold shortest
  dsimp only
  generalize (exact m q).point = point at hle
  have hlast : (onGrid tie m q (point - ((16 : Nat) + 1))).isSome := by
    refine onGrid_isSome hp (le_of_eq_of_le ?_ hle)
    congr 1
    omega
  cases hfound : (List.range 17).findSome? _ with
  | none =>
    have hnone := List.findSome?_eq_none_iff.mp hfound 16 (by simp)
    rw [Option.map_eq_none_iff.mp hnone] at hlast
    cases hlast
  | some d =>
    obtain ⟨n, hn, hd, hnone⟩ := findSome?_range hfound
    obtain ⟨digits, hdigits, rfl⟩ := Option.map_eq_some_iff.mp hd
    exact ⟨n, digits, hn, hdigits, fun j hj => Option.map_eq_none_iff.mp (hnone j hj), rfl⟩

/-- What is found with `n + 1` digits keeps to them. -/
theorem found_digits_le {n digits : Nat} (hm : 0 < m)
    (h : onGrid tie m q ((exact m q).point - (n + 1)) = some digits) : digits ≤ 10 ^ (n + 1) := by
  refine le_of_onGrid hm h ((decade hm q).2.trans_eq ?_)
  congr 1
  omega

/-- **At most seventeen digits are written.** -/
theorem shortest_digits_lt (tie : Tie) (hp : Proper m q) :
    (shortest tie m q).digits < 10 ^ 17 := by
  obtain ⟨n, digits, hn, hfound, -, hshortest⟩ := shortest_found tie hp
  have hdigits := found_digits_le hp.pos hfound
  rw [hshortest]
  exact (trim_digits_lt n.succ_pos hdigits).trans_le (Nat.pow_le_pow_right (by norm_num) hn)

end

end DeskCalculator.Decimal
