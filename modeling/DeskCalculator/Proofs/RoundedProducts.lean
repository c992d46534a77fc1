import DeskCalculator.Operation.Factorial
import DeskCalculator.Proofs.Ordering
import DeskCalculator.Proofs.Rereading

/-!
# DeskCalculator.Proofs.RoundedProducts — the factorial of every whole number

The counter of the loop grows by one, and it would stand still once it had 53 bits; but the product
is past the largest number long before that.  `Factorial.Ends` is the loop without any bound on its
steps, so that what is proved of it says that it ends.  The product that it has come to is `k!` up
to the roundings of the `k` multiplications, which make less than a factor of two: `170!` has room
for that below the largest number, and `171!` above it.

* `Factorial.exists_ends`: the loop ends, from each product that it comes to.
* `RoundedProduct.mono`: a product with more factors is not smaller.
* `factorial_settled`: the factorial of every whole number that is not below zero.
-/

namespace DeskCalculator

open Binary64

/-! ## The product -/

/-- `1 * 2 * ⋯ * n`, rounded after each multiplication. -/
inductive RoundedProduct : Nat → ℚ → Prop
  | zero : RoundedProduct 0 1
  | succ {n : Nat} {v w : ℚ} (h : RoundedProduct n v) (round : RoundedTo (v * (n + 1 : Nat)) w) :
    RoundedProduct (n + 1) w

theorem roundedTo_one : RoundedTo 1 1 := by
  have hone : (1 : ℚ) = (2 ^ 52 : Nat) * 2 ^ (-52 : Int) := by norm_num
  exact ⟨_, _, proper_one, hone ▸ .self _ _, hone⟩

namespace RoundedProduct

variable {m n : Nat} {v w : ℚ}

theorem self (h : RoundedProduct n v) : RoundedTo v v := by
  cases h with
  | zero => exact roundedTo_one
  | succ h round => exact round.self

theorem unique (h : RoundedProduct n v) (h' : RoundedProduct n w) : v = w := by
  induction h generalizing w with
  | zero =>
    cases h'
    rfl
  | succ h round ih =>
    cases h' with
    | succ h' round' =>
      obtain rfl := ih h'
      exact round.unique round'

theorem one_le_factor (n : Nat) : (1 : ℚ) ≤ (n + 1 : Nat) := by
  exact_mod_cast Nat.le_add_left 1 n

/-- No further factor makes the product smaller. -/
theorem mono (h : RoundedProduct m v) (h' : RoundedProduct n w) (hmn : m ≤ n) (hv : 0 ≤ v) :
    v ≤ w := by
  induction h' with
  | zero =>
    obtain rfl := Nat.le_zero.mp hmn
    exact (h.unique .zero).le
  | @succ n u w h' round ih =>
    rcases Nat.le_succ_iff.mp hmn with hle | rfl
    · have hu := ih hle
      have hexact : u ≤ u * (n + 1 : Nat) := le_mul_of_one_le_right (hv.trans hu) (one_le_factor n)
      exact hu.trans (h'.self.mono round hexact)
    · exact (h.unique (.succ h' round)).le

theorem one_le (h : RoundedProduct n v) : 1 ≤ v := mono .zero h (Nat.zero_le n) zero_le_one

theorem one_le_exact (h : RoundedProduct n v) : 1 ≤ v * (n + 1 : Nat) :=
  one_le_mul_of_one_le_of_one_le h.one_le (one_le_factor n)

/-- The product is the exact one but for one rounding a factor. -/
theorem within (h : RoundedProduct n v) : Within n v n.factorial := by
  induction h with
  | zero => exact ⟨by simp, by simp⟩
  | @succ n v w h round ih =>
    have hpos : (0 : ℚ) < n.factorial := by exact_mod_cast n.factorial_pos
    have hfactor : Within 0 ((n + 1 : Nat) : ℚ) (n + 1 : Nat) := ⟨by simp, by simp⟩
    have hexact := ih.mul hfactor hpos (zero_lt_one.trans_le (one_le_factor n))
    have hround := (round.within_of_one_le h.one_le_exact).trans hexact
    rw [Nat.factorial_succ, Nat.mul_comm, Nat.cast_mul]
    rwa [Nat.add_zero, Nat.add_comm 1 n] at hround

end RoundedProduct

/-! ## The range -/

/-- All the roundings together make less than a factor of two. -/
theorem grain_pow_le_two {k : Nat} (hk : k ≤ 170) : grain ^ k ≤ 2 :=
  calc grain ^ k ≤ grain ^ 170 := pow_le_pow_right₀ one_le_grain hk
    _ ≤ (1 + 1 / 500000) ^ 170 := by
        have hgrain : grain ≤ 1 + 1 / 500000 := by norm_num [grain, roundoff]
        exact pow_le_pow_left₀ (zero_le_one.trans one_le_grain) hgrain 170
    _ ≤ 2 := by norm_num

theorem two_mul_factorial_le : (2 : ℚ) * Nat.factorial 170 ≤ 10 ^ 308 := by
  have hnat : 2 * Nat.factorial 170 ≤ 10 ^ 308 := by decide +kernel
  exact_mod_cast hnat

theorem two_mul_tooLarge_le : 2 * tooLarge ≤ Nat.factorial 171 := by
  have hnat : 36028797018963966 * 2 ^ 970 < Nat.factorial 171 * 1 ^ 0 := by decide +kernel
  have hrat := mul_pow_lt hnat
  have hfirst : (2 : ℚ) * (2 ^ 54 - 1) = 36028797018963966 := by norm_num
  rw [pow_zero, mul_one, Nat.cast_ofNat, Nat.cast_ofNat, ← hfirst, mul_assoc] at hrat
  exact hrat.le

namespace RoundedProduct

variable {n : Nat} {v : ℚ}

/-- Up to the factor 170 the product stays within the range. -/
theorem inRange (h : RoundedProduct n v) (hn : n < 170) : InRange (v * (n + 1 : Nat)) := by
  have hgrain := grain_pow_le_two hn.le
  have hfactorial : ((n + 1).factorial : ℚ) ≤ Nat.factorial 170 := by
    exact_mod_cast Nat.factorial_le hn
  refine inRange_of_one_le h.one_le_exact ?_
  calc v * (n + 1 : Nat) ≤ n.factorial * grain ^ n * (n + 1 : Nat) := by
        gcongr
        exact h.within.high
    _ = grain ^ n * (n + 1).factorial := by
        rw [Nat.factorial_succ, Nat.cast_mul]
        ring
    _ ≤ 2 * Nat.factorial 170 := by gcongr
    _ ≤ 10 ^ 308 := two_mul_factorial_le

/-- The factor 171 leads out of it. -/
theorem tooLarge_le (h : RoundedProduct 170 v) : tooLarge ≤ v * (170 + 1 : Nat) := by
  have hv := zero_le_one.trans h.one_le
  have hlow : (Nat.factorial 170 : ℚ) ≤ v * 2 :=
    h.within.low.trans (mul_le_mul_of_nonneg_left (grain_pow_le_two le_rfl) hv)
  have hfactorial : (Nat.factorial 171 : ℚ) = Nat.factorial 170 * (170 + 1 : Nat) := by
    rw [Nat.factorial_succ, Nat.cast_mul, mul_comm]
  have hlarge := two_mul_tooLarge_le
  rw [hfactorial] at hlarge
  push_cast at hlarge ⊢
  linarith

end RoundedProduct

/-! ## The loop -/

namespace Factorial

/-- From the counter `i` and the product `r` the loop up to `n` ends after `k` multiplications, with
the product `s`.  Nothing here bounds their number. -/
inductive Ends (n : Float) : (i r : Float) → (k : Nat) → (s : Float) → Prop
  | counted {i r : Float} (h : ¬ i ≤ n) : Ends n i r 0 r
  | overflowed {i r : Float} (h : i ≤ n) (overflow : (r * i).isInf = true) : Ends n i r 1 (r * i)
  | multiplied {i r s : Float} {k : Nat} (h : i ≤ n) (finite : (r * i).isInf = false)
    (rest : Ends n (i + 1) (r * i) k s) : Ends n i r (k + 1) s

/-- Where the loop ends, a bound that it does not reach changes nothing. -/
theorem Ends.risingProduct_eq {n i r s : Float} {k fuel : Nat} (h : Ends n i r k s)
    (hfuel : k ≤ fuel) : risingProduct n fuel i r = s := by
  induction h generalizing fuel with
  | counted h =>
    cases fuel with
    | zero => rfl
    | succ fuel => rw [risingProduct, if_neg h]
  | overflowed h overflow =>
    obtain ⟨fuel, rfl⟩ := Nat.exists_eq_add_of_le' hfuel
    simp [risingProduct, h, overflow]
  | @multiplied i r s k h finite rest ih =>
    obtain ⟨fuel, rfl⟩ := Nat.exists_eq_add_of_le' hfuel
    have hrest : risingProduct n (fuel + k) (i + 1) (r * i) = s := ih (by omega)
    rw [← Nat.add_assoc, risingProduct]
    simp [h, finite, hrest]

/-- What the loop makes of the number `n`. -/
inductive Multiplied (n : Nat) : Float → Prop
  | product {v : ℚ} {s : Float} (h : n ≤ 170) (product : RoundedProduct n v) (hs : Denotes s v) :
    Multiplied n s
  | overflow (h : 171 ≤ n) : Multiplied n (infinity .positive)

/-- The counter is counted without any rounding. -/
theorem counter_succ {k : Nat} (hk : 0 < k) (hshort : k + 1 < 2 ^ 53) :
    nearest .positive k 0 + 1 = nearest .positive (k + 1) 0 := by
  have hsucc := denotes_natural k.succ_pos hshort
  have hrange : InRange ((k : ℚ) + 1) := by
    have hle : (k : ℚ) + 1 ≤ 10 ^ 16 := by exact_mod_cast hshort.le.trans (by norm_num)
    exact inRange_of_one_le (by simp) (hle.trans (pow_le_pow_right₀ (by norm_num) (by norm_num)))
  obtain ⟨v, hv, hround⟩ := (denotes_natural hk (by omega)).add denotes_one hrange
  rw [← Nat.cast_succ] at hround
  obtain rfl := hround.unique hsucc.roundedTo_self
  exact hv.unique hsucc

/-- **The loop ends**, from each product that it comes to.  It is counted down what is left up to
171, at which the product leaves the range. -/
theorem exists_ends {n r : Float} {N k : Nat} {v : ℚ} (hn : IsNat n N) (hk : k ≤ N) (hk' : k ≤ 170)
    (hv : RoundedProduct k v) (hr : Denotes r v) :
    ∃ j s, j ≤ 171 - k ∧ Ends n (nearest .positive (k + 1) 0) r j s ∧ Multiplied N s := by
  have hcounter : Denotes (nearest .positive (k + 1) 0) (k + 1 : Nat) :=
    denotes_natural k.succ_pos (by omega)
  have hle : nearest .positive (k + 1) 0 ≤ n ↔ k + 1 ≤ N := IsNat.le_iff (.inr hcounter) hn
  have hnearest : Nearest (v * (k + 1 : Nat)) (r * nearest .positive (k + 1) 0) := by
    refine hr.mul_nearest hcounter ?_ ?_
    · linarith [least_normal_le, hv.one_le]
    · linarith [three_mul_half_least_lt, least_normal_le, two_zpow_pos (-1075), hv.one_le_exact]
  rcases hk.eq_or_lt with rfl | hlt
  · exact ⟨0, r, Nat.zero_le _, .counted (by simpa using hle), .product hk' hv hr⟩
  rcases hk'.lt_or_eq with hk' | rfl
  · obtain ⟨w, hw, hround⟩ := hnearest.roundedTo (hv.inRange hk')
    obtain ⟨j, s, hj, hends, hs⟩ := exists_ends hn hlt hk' (hv.succ hround) hw
    rw [← counter_succ k.succ_pos (by omega)] at hends
    exact ⟨j + 1, s, by omega, .multiplied (hle.mpr hlt) hw.isInf hends, hs⟩
  · have hinfinity := hnearest.eq_infinity hv.tooLarge_le
    have hoverflow : (r * nearest .positive (170 + 1) 0).isInf = true := by
      rw [hinfinity]
      decide +kernel
    exact ⟨1, _, le_rfl, .overflowed (hle.mpr hlt) hoverflow, hinfinity ▸ .overflow hlt⟩
termination_by 170 - k

/-- The loop ends from where it starts. -/
theorem exists_ends_start {n : Float} {N : Nat} (hn : IsNat n N) :
    ∃ k s, k ≤ 170 ∧ Ends n 2 1 k s ∧ Multiplied N s := by
  have htwo : (2 : Float) = nearest .positive (1 + 1) 0 := by decide +kernel
  rw [htwo]
  rcases Nat.eq_zero_or_pos N with rfl | hN
  · have hcounter := denotes_natural (n := 1 + 1) (by norm_num) (by norm_num)
    have hle : ¬ nearest .positive (1 + 1) 0 ≤ n := by
      rw [IsNat.le_iff (.inr hcounter) hn]
      omega
    exact ⟨0, 1, Nat.zero_le _, .counted hle, .product (Nat.zero_le _) .zero denotes_one⟩
  · have hfirst : RoundedProduct 1 1 := .succ .zero (by simpa using roundedTo_one)
    exact exists_ends hn hN (by norm_num) hfirst denotes_one

section

variable {M N : Nat} {r s : Float}

/-- What the loop makes of a larger number is not smaller. -/
theorem Multiplied.le (h : Multiplied M s) (h' : Multiplied N r) (hMN : M ≤ N) : s ≤ r := by
  cases h with
  | product hM product hs =>
    cases h' with
    | product hN product' hr =>
      exact (hs.le_iff hr).mpr (product.mono product' hMN (zero_le_one.trans product.one_le))
    | overflow hN => exact hs.le_infinity
  | overflow hM =>
    cases h' with
    | product hN product' hr => omega
    | overflow hN => decide +kernel

theorem Multiplied.eq_infinity_iff (h : Multiplied N r) : r = infinity .positive ↔ 171 ≤ N := by
  cases h with
  | product hN product hr =>
    refine iff_of_false ?_ (by omega)
    rintro rfl
    obtain ⟨m, q, hp, hparts, -⟩ := hr
    rw [parts_infinity] at hparts
    cases hparts
  | overflow hN => exact iff_of_true rfl hN

end

end Factorial

/-! ## The guards -/

section

variable {n r : Float} {N : Nat}

/-- What passes the guards is a natural number. -/
theorem exists_isNat (hsign : ¬ n < 0) (hwhole : Whole n) : ∃ N, IsNat n N := by
  cases hwhole with
  | zero h => exact ⟨0, .inl ⟨rfl, _, eq_of_parts_eq (h.trans (parts_zero _).symm)⟩⟩
  | @finite s m q hm h N value =>
    cases s with
    | negative => exact absurd (neg_of_parts h) hsign
    | positive =>
      have hcanonical := canonical_parts n
      rw [h] at hcanonical
      cases hcanonical with
      | finite _ hp => exact ⟨N, .inr ⟨m, q, hp, h, value.symm⟩⟩

theorem Binary64.IsNat.toRat_eq (h : IsNat n N) : toRat n = N := by
  rcases h with ⟨rfl, s, rfl⟩ | ⟨m, q, hp, hparts, hvalue⟩
  · rw [toRat_zero, Nat.cast_zero]
  · rw [toRat_of_parts hparts, hvalue, unit, one_mul]

theorem factorial_eq (hsign : ¬ n < 0) (hwhole : Whole n) :
    factorial n = .ok (risingProduct n 170 2 1) := by
  have hguard : (!isWhole n) = false := by simpa using isWhole_iff.mpr hwhole
  unfold factorial
  rw [if_neg hsign, hguard]
  rfl

theorem guards_of_factorial (h : factorial n = .ok r) :
    ¬ n < 0 ∧ Whole n ∧ risingProduct n 170 2 1 = r := by
  unfold factorial at h
  split at h
  · cases h
  · next hsign =>
    split at h
    · cases h
    · next hwhole =>
      cases h
      exact ⟨hsign, isWhole_iff.mp (by simpa using hwhole), rfl⟩

/-- What the factorial is, where the guards are passed. -/
theorem multiplied_of_factorial (h : factorial n = .ok r) :
    ∃ N, IsNat n N ∧ Factorial.Multiplied N r := by
  obtain ⟨hsign, hwhole, hproduct⟩ := guards_of_factorial h
  obtain ⟨N, hn⟩ := exists_isNat hsign hwhole
  obtain ⟨k, s, hk, hends, hs⟩ := Factorial.exists_ends_start hn
  obtain rfl : r = s := hproduct.symm.trans (hends.risingProduct_eq hk)
  exact ⟨N, hn, hs⟩

theorem isNat_literals : IsNat 170 170 ∧ IsNat 171 171 := by
  have h : (170 : Float) = nearest .positive 170 0 ∧ (171 : Float) = nearest .positive 171 0 := by
    decide +kernel
  rw [h.1, h.2]
  exact ⟨.inr (denotes_natural (by norm_num) (by norm_num)),
    .inr (denotes_natural (by norm_num) (by norm_num))⟩

end

/-- **The factorial of every whole number that is not below zero.**  The loop ends after at most 170
multiplications.  It ends with the infinity exactly from 171 on; up to 170 it ends with the product
that is rounded after each multiplication, a finite number of at least one.  The factorial of a
larger number is not smaller. -/
theorem factorial_settled {n : Float} (hsign : ¬ n < 0) (hwhole : Whole n) :
    ∃ (N k : Nat) (r : Float), toRat n = N ∧ k ≤ 170 ∧ Factorial.Ends n 2 1 k r ∧
      factorial n = .ok r ∧
      (r = infinity .positive ↔ 171 ≤ n) ∧
      (n ≤ 170 → ∃ v, RoundedProduct N v ∧ Denotes r v ∧ 1 ≤ v) ∧
      ∀ m s, m ≤ n → factorial m = .ok s → s ≤ r := by
  obtain ⟨N, hn⟩ := exists_isNat hsign hwhole
  obtain ⟨k, r, hk, hends, hr⟩ := Factorial.exists_ends_start hn
  refine ⟨N, k, r, hn.toRat_eq, hk, hends, ?_, ?_, ?_, ?_⟩
  · rw [factorial_eq hsign hwhole, hends.risingProduct_eq hk]
  · rw [hr.eq_infinity_iff, isNat_literals.2.le_iff hn]
  · intro hle
    have hN := (hn.le_iff isNat_literals.1).mp hle
    cases hr with
    | product h product hr => exact ⟨_, product, hr, product.one_le⟩
    | overflow h => omega
  · intro m s hmn hm
    obtain ⟨M, hm, hs⟩ := multiplied_of_factorial hm
    exact hs.le hr ((hm.le_iff hn).mp hmn)

/-- At `1e300` the counter would stand still long before the number is reached; a zero with a minus
sign leaves the product empty. -/
theorem factorial_settled_far_and_near :
    (¬ (1e300 : Float) < 0 ∧ Whole 1e300 ∧
      ∃ k ≤ 170, Factorial.Ends 1e300 2 1 k (infinity .positive)) ∧
    ¬ zero .negative < 0 ∧ Whole (zero .negative) ∧
      ∃ r, factorial (zero .negative) = .ok r ∧ Denotes r 1 := by
  have hguards : (¬ (1e300 : Float) < 0 ∧ isWhole 1e300 = true ∧ (171 : Float) ≤ 1e300) ∧
      ¬ zero .negative < 0 ∧ isWhole (zero .negative) = true ∧ zero .negative ≤ 170 := by
    decide +kernel
  obtain ⟨⟨hsign, hwhole, hlarge⟩, hsign', hwhole', hsmall⟩ := hguards
  rw [isWhole_iff] at hwhole hwhole'
  obtain ⟨-, k, r, -, hk, hends, -, hinfinity, -, -⟩ := factorial_settled hsign hwhole
  obtain ⟨N, -, s, hN, -, -, hs, -, hproduct, -⟩ := factorial_settled hsign' hwhole'
  obtain ⟨v, hv, hdenotes, -⟩ := hproduct hsmall
  obtain rfl : N = 0 := by simpa using hN.symm
  refine ⟨⟨hsign, hwhole, k, hk, hinfinity.mpr hlarge ▸ hends⟩, hsign', hwhole', s, hs, ?_⟩
  exact hv.unique .zero ▸ hdenotes

end DeskCalculator
