import DeskCalculator.Decimal.Shortest
import DeskCalculator.Proofs.Rounding

/-!
# DeskCalculator.Proofs.ShortestDigits — the digits that are written identify the number

The search compares naturals, in a unit in which the number, the ends of its interval and the points
of the grid are all whole.  Seen as rationals, what it finds lies in the interval of the number; so
does the exact form that it falls back on, and zeros at the end are dropped without a change.
-/

namespace DeskCalculator.Decimal

open Binary64

/-- The rational number that a decimal stands for. -/
def toRat (d : Decimal) : ℚ := d.digits * 10 ^ d.exponent

section

variable {m : Nat} {q g : Int}

/-- The interval of a number in a unit in which everything is whole: the number is `4 * m` quanta,
and `n` is a number of steps. -/
theorem rounds_iff_scaled {quantum n step : Nat} {r : ℚ} (hm : 0 < m) (hquantum : 0 < quantum)
    (hr : r / 2 ^ q = n * step / (4 * quantum)) : Rounds m q r ↔
    ((if m = leastNormal ∧ leastExponent < q then 4 * m - 1 else 4 * m - 2) * quantum < n * step ∨
      (if m = leastNormal ∧ leastExponent < q then 4 * m - 1 else 4 * m - 2) * quantum = n * step ∧
        Even m) ∧
    (n * step < (4 * m + 2) * quantum ∨ n * step = (4 * m + 2) * quantum ∧ Even m) := by
  have hpos : (0 : ℚ) < 4 * quantum := by positivity
  have hbound : (if m = 2 ^ 52 ∧ -1074 < q then (m : ℚ) - 1 / 4 else m - 1 / 2) =
      (if m = leastNormal ∧ leastExponent < q then 4 * m - 1 else 4 * m - 2 : Nat) / 4 := by
    show _ = ((if m = 2 ^ 52 ∧ -1074 < q then 4 * m - 1 else 4 * m - 2 : Nat) : ℚ) / 4
    split
    · rw [Nat.cast_sub (by omega)]
      push_cast
      ring
    · rw [Nat.cast_sub (by omega)]
      push_cast
      ring
  generalize (if m = leastNormal ∧ leastExponent < q then 4 * m - 1 else 4 * m - 2) = low at hbound ⊢
  have hlow : (low : ℚ) / 4 = low * quantum / (4 * quantum) := by field_simp
  have hhigh : (m : ℚ) + 1 / 2 = (4 * m + 2) * quantum / (4 * quantum) := by field_simp; ring
  have hbelow : ((low : ℚ) / 4 < r / 2 ^ q ∨ (low : ℚ) / 4 = r / 2 ^ q ∧ Even m) ↔
      (low * quantum < n * step ∨ low * quantum = n * step ∧ Even m) := by
    rw [hr, hlow, div_lt_div_iff_of_pos_right hpos, div_left_inj' hpos.ne']
    norm_cast
  have habove : (r / 2 ^ q < m + 1 / 2 ∨ r / 2 ^ q = m + 1 / 2 ∧ Even m) ↔
      (n * step < (4 * m + 2) * quantum ∨ n * step = (4 * m + 2) * quantum ∧ Even m) := by
    rw [hr, hhigh, div_lt_div_iff_of_pos_right hpos, div_left_inj' hpos.ne']
    norm_cast
  rw [← hbelow, ← habove, ← hbound]
  exact ⟨fun h => ⟨h.low, h.high⟩, fun h => ⟨h.1, h.2⟩⟩

/-- A quotient of powers of two and of ten, on the two scales. -/
theorem grid_scale (n : Nat) (q g : Int) :
    (n * 10 ^ g : ℚ) / 2 ^ q =
      n * (10 ^ g.toNat * 2 ^ (2 - q).toNat : Nat) /
        (4 * (2 ^ (q - 2).toNat * 10 ^ (-g).toNat : Nat)) := by
  have hten : (10 : ℚ) ^ g = 10 ^ g.toNat / 10 ^ (-g).toNat := by
    rw [← zpow_natCast, ← zpow_natCast, ← zpow_sub₀ (by norm_num)]
    congr 1
    omega
  have htwo : (2 : ℚ) ^ q = 4 * (2 ^ (q - 2).toNat / 2 ^ (2 - q).toNat) := by
    rw [← zpow_natCast, ← zpow_natCast, ← zpow_sub₀ (by norm_num),
      show (4 : ℚ) = 2 ^ (2 : Int) by norm_num, ← zpow_add₀ (by norm_num)]
    congr 1
    omega
  rw [hten, htwo]
  push_cast
  field_simp

/-- A number `k * 2 ^ q` and a point of the grid in the common unit. -/
theorem number_scale (k : Nat) (q g : Int) : (k * 2 ^ q : ℚ) / 2 ^ q =
    (4 * k * (2 ^ (q - 2).toNat * 10 ^ (-g).toNat) : Nat) /
      (4 * (2 ^ (q - 2).toNat * 10 ^ (-g).toNat : Nat)) := by
  have hpos : (0 : ℚ) < 4 * (2 ^ (q - 2).toNat * 10 ^ (-g).toNat : Nat) := by positivity
  rw [mul_div_cancel_right₀ _ (two_zpow_pos q).ne', eq_div_iff hpos.ne']
  push_cast
  ring

theorem lt_grid_iff {k n : Nat} : (k * 2 ^ q : ℚ) < n * 10 ^ g ↔
    4 * k * (2 ^ (q - 2).toNat * 10 ^ (-g).toNat) < n * (10 ^ g.toNat * 2 ^ (2 - q).toNat) := by
  have hpos : (0 : ℚ) < 4 * (2 ^ (q - 2).toNat * 10 ^ (-g).toNat : Nat) := by positivity
  rw [← div_lt_div_iff_of_pos_right (two_zpow_pos q), number_scale k q g, grid_scale n q g,
    div_lt_div_iff_of_pos_right hpos]
  norm_cast

theorem grid_lt_iff {k n : Nat} : (n * 10 ^ g : ℚ) < k * 2 ^ q ↔
    n * (10 ^ g.toNat * 2 ^ (2 - q).toNat) < 4 * k * (2 ^ (q - 2).toNat * 10 ^ (-g).toNat) := by
  have hpos : (0 : ℚ) < 4 * (2 ^ (q - 2).toNat * 10 ^ (-g).toNat : Nat) := by positivity
  rw [← div_lt_div_iff_of_pos_right (two_zpow_pos q), number_scale k q g, grid_scale n q g,
    div_lt_div_iff_of_pos_right hpos]
  norm_cast

/-- What the search makes of the two neighbours of a number on a grid, of which `d` is the lower
one. -/
inductive Neighbour (tie : Tie) (m : Nat) (q g : Int) (d : Nat) : Option Nat → Prop
  | neither (below : ¬ Rounds m q (d * 10 ^ g)) (above : ¬ Rounds m q ((d + 1 : Nat) * 10 ^ g)) :
      Neighbour tie m q g d none
  | lower (rounds : Rounds m q (d * 10 ^ g))
      (nearer : Rounds m q ((d + 1 : Nat) * 10 ^ g) → 2 * (m * 2 ^ q : ℚ) < (2 * d + 1) * 10 ^ g ∨
        2 * (m * 2 ^ q : ℚ) = (2 * d + 1) * 10 ^ g ∧ tie = .toEven) :
      Neighbour tie m q g d (some d)
  | upper (rounds : Rounds m q ((d + 1 : Nat) * 10 ^ g))
      (nearer : Rounds m q (d * 10 ^ g) → (2 * d + 1) * 10 ^ g ≤ 2 * (m * 2 ^ q : ℚ)) :
      Neighbour tie m q g d (some (d + 1))

/-- The choice between the neighbours: it is known which of them are rounded to the number, and on
which side of the middle between them the number lies. -/
theorem Neighbour.of_hits (tie : Tie) {d left right : Nat} {lowerHit upperHit : Bool}
    (hl : lowerHit = true ↔ Rounds m q (d * 10 ^ g))
    (hu : upperHit = true ↔ Rounds m q ((d + 1 : Nat) * 10 ^ g))
    (hlt : 2 * (m * 2 ^ q : ℚ) < (2 * d + 1) * 10 ^ g ↔ left < right)
    (hgt : (2 * d + 1) * 10 ^ g < 2 * (m * 2 ^ q : ℚ) ↔ right < left) :
    Neighbour tie m q g d
      (match lowerHit, upperHit with
      | false, false => none
      | true, false => some d
      | false, true => some (d + 1)
      | true, true =>
        match compare left right, tie with
        | .lt, _ => some d
        | .gt, _ => some (d + 1)
        | .eq, .up => some (d + 1)
        | .eq, .toEven => some (if d % 2 = 0 then d else d + 1)) := by
  cases lowerHit with
  | false =>
    have hno : ¬ Rounds m q (d * 10 ^ g) := fun h => by cases hl.mpr h
    cases upperHit with
    | false => exact .neither hno fun h => by cases hu.mpr h
    | true => exact .upper (hu.mp rfl) fun h => absurd h hno
  | true =>
    have hyes := hl.mp rfl
    cases upperHit with
    | false => exact .lower hyes fun h => by cases hu.mpr h
    | true =>
      have hyes' := hu.mp rfl
      cases hcompare : compare left right with
      | lt => exact .lower hyes fun _ => .inl (hlt.mpr (Nat.compare_eq_lt.mp hcompare))
      | gt => exact .upper hyes' fun _ => (hgt.mpr (Nat.compare_eq_gt.mp hcompare)).le
      | eq =>
        obtain rfl := Nat.compare_eq_eq.mp hcompare
        have hle : (2 * d + 1) * 10 ^ g ≤ 2 * (m * 2 ^ q : ℚ) :=
          not_lt.mp fun h => Nat.lt_irrefl _ (hlt.mp h)
        have hge : 2 * (m * 2 ^ q : ℚ) ≤ (2 * d + 1) * 10 ^ g :=
          not_lt.mp fun h => Nat.lt_irrefl _ (hgt.mp h)
        cases tie with
        | up => exact .upper hyes' fun _ => hle
        | toEven =>
          show Neighbour _ m q g d (some (if d % 2 = 0 then d else d + 1))
          split
          · exact .lower hyes fun _ => .inr ⟨le_antisymm hge hle, rfl⟩
          · exact .upper hyes' fun _ => hle

theorem onGrid_spec (tie : Tie) (hm : 0 < m) (q g : Int) : ∃ d : Nat,
    (d * 10 ^ g : ℚ) ≤ m * 2 ^ q ∧ (m * 2 ^ q : ℚ) < (d + 1 : Nat) * 10 ^ g ∧
      Neighbour tie m q g d (onGrid tie m q g) := by
  have hrounds {n : Nat} := fun hquantum =>
    rounds_iff_scaled (q := q) hm hquantum (grid_scale n q g)
  have hless {k n : Nat} := lt_grid_iff (q := q) (g := g) (k := k) (n := n)
  have hmore {k n : Nat} := grid_lt_iff (q := q) (g := g) (k := k) (n := n)
  unfold onGrid
  simp only [Nat.pow_eq]
  have hquantum : 0 < 2 ^ (q - 2).toNat * 10 ^ (-g).toNat := by positivity
  have hstep : 0 < 10 ^ g.toNat * 2 ^ (2 - q).toNat := by positivity
  replace hrounds {n : Nat} := hrounds (n := n) hquantum
  generalize 2 ^ (q - 2).toNat * 10 ^ (-g).toNat = quantum at hrounds hless hmore hquantum ⊢
  generalize 10 ^ g.toNat * 2 ^ (2 - q).toNat = step at hrounds hless hmore hstep ⊢
  have hbelow : 4 * m * quantum / step * step ≤ 4 * m * quantum := Nat.div_mul_le_self _ _
  have habove : 4 * m * quantum < (4 * m * quantum / step + 1) * step := by
    rw [add_one_mul]
    exact Nat.lt_div_mul_add hstep
  generalize 4 * m * quantum / step = d at hbelow habove ⊢
  refine ⟨d, not_lt.mp fun h => Nat.not_lt.mpr hbelow (hless.mp h), hless.mpr habove, ?_⟩
  have hlow_le : (if m = leastNormal ∧ leastExponent < q then 4 * m - 1 else 4 * m - 2) * quantum ≤
      4 * m * quantum := Nat.mul_le_mul_right _ (by split <;> omega)
  have hhigh : 4 * m * quantum < (4 * m + 2) * quantum :=
    Nat.mul_lt_mul_of_pos_right (by omega) hquantum
  generalize (if m = leastNormal ∧ leastExponent < q then 4 * m - 1 else 4 * m - 2) * quantum = low
    at hrounds hlow_le ⊢
  have hvalue : ((2 * m : Nat) * 2 ^ q : ℚ) = 2 * (m * 2 ^ q) := by push_cast; ring
  have hmiddle : ((2 * d + 1 : Nat) : ℚ) = 2 * d + 1 := by push_cast; ring
  have hnatural : 4 * (2 * m) * quantum = 2 * (4 * m * quantum) := by ring
  have hlt := hless (k := 2 * m) (n := 2 * d + 1)
  have hgt := hmore (k := 2 * m) (n := 2 * d + 1)
  rw [hvalue, hmiddle, hnatural] at hlt hgt
  -- of each neighbour only the end of the interval on its own side is in question
  refine .of_hits tie ?lower ?upper hlt hgt
  case lower =>
    rw [hrounds, and_iff_left (.inl (hbelow.trans_lt hhigh)), Nat.even_iff]
    simp
  case upper =>
    rw [hrounds, and_iff_right (.inl (hlow_le.trans_lt habove)), Nat.even_iff]
    simp

/-- What is found on a grid is rounded back. -/
theorem onGrid_rounds {tie : Tie} {n : Nat} (hm : 0 < m) (h : onGrid tie m q g = some n) :
    0 < n ∧ Rounds m q (n * 10 ^ g) := by
  obtain ⟨d, -, -, hspec⟩ := onGrid_spec tie hm q g
  rw [h] at hspec
  have hrounds : Rounds m q (n * 10 ^ g) := by
    cases hspec with
    | lower rounds nearer => exact rounds
    | upper rounds nearer => exact rounds
  refine ⟨Nat.pos_of_ne_zero ?_, hrounds⟩
  rintro rfl
  have hpos := hrounds.pos hm
  simp at hpos

theorem exact_toRat (m : Nat) (q : Int) : (exact m q).toRat = m * 2 ^ q := by
  unfold exact
  split
  · next hq =>
    have htwo : (2 : ℚ) ^ q = 2 ^ q.toNat := by rw [← zpow_natCast, Int.toNat_of_nonneg hq]
    simp [toRat, htwo]
  · next hq =>
    obtain ⟨k, rfl⟩ : ∃ k : Nat, q = -k := ⟨(-q).toNat, by omega⟩
    have hten : (10 : ℚ) ^ k = 5 ^ k * 2 ^ k := by rw [← mul_pow]; norm_num
    simp only [toRat, neg_neg, Int.toNat_natCast, zpow_neg, zpow_natCast, hten, Nat.pow_eq]
    push_cast
    field_simp

theorem exact_digits_pos (hm : 0 < m) (q : Int) : 0 < (exact m q).digits := by
  unfold exact
  split <;> simp only [Nat.pow_eq] <;> positivity

/-- Zeros at the end carry no value. -/
theorem trim_toRat (fuel : Nat) (d : Decimal) : (trim fuel d).toRat = d.toRat := by
  induction fuel generalizing d with
  | zero => rfl
  | succ fuel ih =>
    unfold trim
    split
    · next hzero =>
      rw [ih]
      have hdigits : (d.digits : ℚ) = (d.digits / 10 : Nat) * 10 := by
        exact_mod_cast (Nat.div_mul_cancel (Nat.dvd_of_mod_eq_zero hzero)).symm
      simp only [toRat]
      rw [hdigits, zpow_add₀ (by norm_num), zpow_one]
      ring
    · rfl

theorem trim_digits_pos (fuel : Nat) {d : Decimal} (h : 0 < d.digits) :
    0 < (trim fuel d).digits := by
  induction fuel generalizing d with
  | zero => exact h
  | succ fuel ih =>
    unfold trim
    split
    · exact ih (show 0 < d.digits / 10 by omega)
    · exact h

/-- **The digits that are written are rounded back to the number.** -/
theorem shortest_rounds (tie : Tie) (hm : 0 < m) (q : Int) :
    0 < (shortest tie m q).digits ∧ Rounds m q (shortest tie m q).toRat := by
  have hexact : 0 < (exact m q).digits ∧ Rounds m q (exact m q).toRat :=
    ⟨exact_digits_pos hm q, exact_toRat m q ▸ Rounds.self m q⟩
  have htrim {d : Decimal} (h : 0 < d.digits ∧ Rounds m q d.toRat) :
      0 < (d.trim 17).digits ∧ Rounds m q (d.trim 17).toRat :=
    ⟨trim_digits_pos 17 h.1, (trim_toRat 17 d).symm ▸ h.2⟩
  unfold shortest
  refine htrim ?_
  cases hfound : (List.range 17).findSome? _ with
  | none => exact hexact
  | some d =>
    obtain ⟨n, -, hn⟩ := List.exists_of_findSome?_eq_some hfound
    obtain ⟨digits, hdigits, rfl⟩ := Option.map_eq_some_iff.mp hn
    exact onGrid_rounds hm hdigits

end

end DeskCalculator.Decimal
