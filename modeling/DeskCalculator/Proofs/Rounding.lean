import DeskCalculator.Proofs.Packing

/-!
# DeskCalculator.Proofs.Rounding — which numbers are rounded to `m * 2 ^ q`

Rounding works on a significand and on what is known of the bits behind it.  `Locates` says of such
a pair which rational number it stands for; each step of rounding, the shift to the right and the
choice of the nearest whole number, is stated on that number.  `Rounds m q r` says that the rational
`r` lies in the interval of `m * 2 ^ q`, and the main lemma is that rounding finds `m` and `q` for
each such `r`, in `round`, in a product and in a quotient.
-/

namespace DeskCalculator.Binary64

open Float.Model (Format totalExponent)
open Float.Model.UnpackedFloat

/-- Where the number `t` lies: it is `m` and a fraction, which is compared with a half. -/
def Locates (m : Nat) : Accuracy → ℚ → Prop
  | .exact, t => t = m
  | .inexact .lt, t => m < t ∧ t < m + 1 / 2
  | .inexact .eq, t => t = m + 1 / 2
  | .inexact .gt, t => m + 1 / 2 < t ∧ t < m + 1

/-- `n` is the whole number nearest to `t`; a half goes to the even one. -/
structure NearestEven (t : ℚ) (n : Nat) : Prop where
  low : n - 1 / 2 < t ∨ n - 1 / 2 = t ∧ Even n
  high : t < n + 1 / 2 ∨ t = n + 1 / 2 ∧ Even n

theorem NearestEven.unique {t : ℚ} {m n : Nat} (hm : NearestEven t m) (hn : NearestEven t n) :
    m = n := by
  wlog h : m < n generalizing m n
  · rcases Nat.lt_or_ge n m with h' | h'
    · exact (this hn hm h').symm
    · omega
  exfalso
  -- the two are neighbours, and `t` is the half between them, so that both would be even
  have hstep : (m : ℚ) + 1 ≤ n := by exact_mod_cast h
  have hmid : (n : ℚ) - 1 / 2 ≤ t ∧ t ≤ m + 1 / 2 := by
    refine ⟨?_, ?_⟩
    · rcases hn.low with h | ⟨h, -⟩ <;> linarith
    · rcases hm.high with h | ⟨h, -⟩ <;> linarith
  have hnext : n = m + 1 := by
    have hle : (n : ℚ) ≤ m + 1 := by linarith
    have : n ≤ m + 1 := by exact_mod_cast hle
    omega
  have hmeven : Even m := by
    rcases hm.high with h | ⟨-, h⟩
    · linarith
    · exact h
  have hneven : Even n := by
    rcases hn.low with h | ⟨-, h⟩
    · linarith
    · exact h
  rw [hnext, Nat.even_add_one] at hneven
  exact hneven hmeven

section

variable {m : Nat} {accuracy : Accuracy} {t : ℚ}

theorem Locates.bounds (h : Locates m accuracy t) : (m : ℚ) ≤ t ∧ t < m + 1 := by
  unfold Locates at h
  split at h
  · subst h; constructor <;> linarith
  · constructor <;> linarith
  · subst h; constructor <;> linarith
  · constructor <;> linarith

/-- Rounding to the nearest, as it is told from where the number lies. -/
theorem Locates.nearestEven (h : Locates m accuracy t) :
    NearestEven t (accuracy.roundToNearestEven m) := by
  unfold Locates at h
  split at h
  · subst h
    refine ⟨.inl ?_, .inl ?_⟩ <;> simp [Accuracy.roundToNearestEven]
  · obtain ⟨hlow, hhigh⟩ := h
    refine ⟨.inl ?_, .inl ?_⟩ <;> simp only [Accuracy.roundToNearestEven] <;> linarith
  · subst h
    rcases Nat.even_or_odd m with hm | hm
    · have hmod : m % 2 = 0 := Nat.even_iff.mp hm
      refine ⟨.inl ?_, .inr ⟨?_, ?_⟩⟩ <;> simp [Accuracy.roundToNearestEven, hmod, hm]
      linarith
    · have hmod : m % 2 = 1 := Nat.odd_iff.mp hm
      have heven : Even (m + 1) := hm.add_one
      refine ⟨.inr ⟨?_, ?_⟩, .inl ?_⟩ <;> simp [Accuracy.roundToNearestEven, hmod, heven]
      linarith
  · obtain ⟨hlow, hhigh⟩ := h
    refine ⟨.inl ?_, .inl ?_⟩ <;> simp only [Accuracy.roundToNearestEven] <;> push_cast <;> linarith

/-- One bit less: the bit that is shifted out decides, and the bits behind it break a tie. -/
theorem Locates.shiftRightOne {em : ExtendedMantissa} (h : Locates em.mantissa em.accuracy t) :
    Locates em.shiftRightOne.mantissa em.shiftRightOne.accuracy (t / 2) := by
  obtain ⟨m, roundBit, stickyBit⟩ := em
  obtain ⟨k, bit, hshift, hhalves⟩ : ∃ (k : Nat) (bit : Bool),
      ExtendedMantissa.shiftRightOne ⟨m, roundBit, stickyBit⟩ = ⟨k, bit, roundBit || stickyBit⟩ ∧
        (m : ℚ) = 2 * k + bit.toNat := by
    refine ⟨m / 2, m % 2 != 0, rfl, ?_⟩
    have hnat : m = 2 * (m / 2) + (m % 2 != 0).toNat := by
      rcases Nat.mod_two_eq_zero_or_one m with h | h <;> simp [h] <;> omega
    exact_mod_cast hnat
  rw [hshift]
  cases bit <;> cases roundBit <;> cases stickyBit <;>
    simp [Locates, ExtendedMantissa.accuracy, hhalves] at h ⊢ <;>
    grind

theorem Locates.shiftRight {em : ExtendedMantissa} (h : Locates em.mantissa em.accuracy t)
    (k : Nat) : Locates (em >>> k).mantissa (em >>> k).accuracy (t / 2 ^ k) := by
  induction k with
  | zero =>
    have hzero : em >>> 0 = em := rfl
    simpa [hzero] using h
  | succ k ih =>
    have hstep : Locates (em >>> (k + 1)).mantissa (em >>> (k + 1)).accuracy (t / 2 ^ k / 2) :=
      ih.shiftRightOne
    rwa [div_div, ← pow_succ] at hstep

theorem Locates.extended (h : Locates m accuracy t) :
    Locates (ExtendedMantissa.ofMantissaAndAccuracy m accuracy).mantissa
      (ExtendedMantissa.ofMantissaAndAccuracy m accuracy).accuracy t := by
  match accuracy with
  | .exact | .inexact .lt | .inexact .eq | .inexact .gt => exact h

end

/-- The positive numbers that are rounded to `m * 2 ^ q`, for a proper `m` and `q`.  Below the first
number of a binade the next number is only half as far away. -/
structure Rounds (m : Nat) (q : Int) (r : ℚ) : Prop where
  low : (if m = 2 ^ 52 ∧ -1074 < q then (m : ℚ) - 1 / 4 else m - 1 / 2) < r / 2 ^ q ∨
    (if m = 2 ^ 52 ∧ -1074 < q then (m : ℚ) - 1 / 4 else m - 1 / 2) = r / 2 ^ q ∧ Even m
  high : r / 2 ^ q < m + 1 / 2 ∨ r / 2 ^ q = m + 1 / 2 ∧ Even m

/-- The exponent to which a significand is shifted. -/
theorem targetExponent_eq (m : Nat) (e : Int) :
    Format.binary64.targetExponent (totalExponent m e) = max (m.log2 + e - 52) (-1074) := by
  show max ((m.log2 : Int) + 1 + e - 53) (-1074) = _
  omega

section

variable {m M : Nat} {q e : Int} {r : ℚ} {accuracy : Accuracy} {s : Sign}

theorem two_zpow_pos (q : Int) : (0 : ℚ) < 2 ^ q := zpow_pos (by norm_num) q

theorem lt_of_two_zpow_lt {a b : Int} (h : (2 : ℚ) ^ a < 2 ^ b) : a < b :=
  (zpow_lt_zpow_iff_right₀ (by norm_num)).mp h

/-- A number lies between the powers of two that its whole part tells. -/
theorem Locates.lt_two_zpow (h : Locates M accuracy (r / 2 ^ e)) :
    r < 2 ^ ((M.log2 : Int) + 1 + e) := by
  have hlt : (M : ℚ) + 1 ≤ 2 ^ (M.log2 + 1) := by exact_mod_cast (Nat.lt_log2_self (n := M))
  have ht := h.bounds.2
  rw [zpow_add₀ (by norm_num), ← div_lt_iff₀ (two_zpow_pos e)]
  calc r / 2 ^ e < M + 1 := ht
    _ ≤ 2 ^ (M.log2 + 1) := hlt
    _ = 2 ^ ((M.log2 : Int) + 1) := by norm_cast

theorem Locates.two_zpow_le (h : Locates M accuracy (r / 2 ^ e)) (hM : M ≠ 0) :
    2 ^ ((M.log2 : Int) + e) ≤ r := by
  have hle : (2 : ℚ) ^ M.log2 ≤ M := by exact_mod_cast Nat.log2_self_le hM
  have ht := h.bounds.1
  rw [zpow_add₀ (by norm_num), ← le_div_iff₀ (two_zpow_pos e)]
  calc (2 : ℚ) ^ (M.log2 : Int) = 2 ^ M.log2 := by norm_cast
    _ ≤ M := hle
    _ ≤ r / 2 ^ e := ht

theorem Rounds.nearestEven (h : Rounds m q r) : NearestEven (r / 2 ^ q) m := by
  refine ⟨?_, h.high⟩
  have hlow := h.low
  split at hlow
  · left
    rcases hlow with h | ⟨h, -⟩ <;> linarith
  · exact hlow

theorem Rounds.pos (h : Rounds m q r) (hm : 0 < m) : 0 < r := by
  have hone : (1 : ℚ) ≤ m := by exact_mod_cast hm
  have hquotient : 0 < r / 2 ^ q := by
    rcases h.nearestEven.low with h | ⟨h, -⟩ <;> linarith
  exact (div_pos_iff_of_pos_right (two_zpow_pos q)).mp hquotient

theorem Rounds.lt_two_zpow (h : Rounds m q r) (hm : m < 2 ^ 53) : r < 2 ^ (53 + q) := by
  have hle : (m : ℚ) + 1 ≤ 2 ^ (53 : Int) := by exact_mod_cast hm
  rw [zpow_add₀ (by norm_num), ← div_lt_iff₀ (two_zpow_pos q)]
  rcases h.high with h | ⟨h, -⟩ <;> linarith

theorem Rounds.two_zpow_lt (h : Rounds m q r) (hm : 2 ^ 52 ≤ m) : 2 ^ (51 + q) < r := by
  have hle : (2 : ℚ) ^ 52 ≤ m := by exact_mod_cast hm
  rw [zpow_add₀ (by norm_num), ← lt_div_iff₀ (two_zpow_pos q)]
  have hlow := h.nearestEven.low
  norm_num
  rcases hlow with h | ⟨h, -⟩ <;> linarith

/-- What is rounded to a number lies in the binade of the number, or just below its first number. -/
theorem Rounds.eq_first_of_below (h : Rounds m q r) (hm : 2 ^ 52 ≤ m) (hr : ¬ 2 ^ (52 + q) ≤ r) :
    m = 2 ^ 52 := by
  by_contra hne
  have hle : (2 : ℚ) ^ 52 + 1 ≤ m := by exact_mod_cast (show 2 ^ 52 + 1 ≤ m by omega)
  refine hr ?_
  rw [zpow_add₀ (by norm_num), ← le_div_iff₀ (two_zpow_pos q)]
  have hlow := h.nearestEven.low
  norm_num
  rcases hlow with h | ⟨h, -⟩ <;> linarith

/-- The exponent to which what is rounded to `m * 2 ^ q` is shifted. -/
theorem Rounds.target (h : Rounds m q r) (hp : Shaped m q) (hM : Locates M accuracy (r / 2 ^ e))
    (hzero : M = 0 → e ≤ -1074) :
    max ((M.log2 : Int) + e - 52) (-1074) = q ∨
      max ((M.log2 : Int) + e - 52) (-1074) = q - 1 ∧
        m = 2 ^ 52 ∧ -1074 < q ∧ r < 2 ^ (52 + q) := by
  have hbelow := hp.below
  have hleast := hp.least
  have htop : (M.log2 : Int) + e ≤ 52 + q ∨ (M.log2 : Int) + e ≤ -1074 := by
    rcases Nat.eq_zero_or_pos M with rfl | hpos
    · have := hzero rfl
      simp [Nat.log2_zero]
      omega
    · have := lt_of_two_zpow_lt ((hM.two_zpow_le (by omega)).trans_lt (h.lt_two_zpow hbelow))
      omega
  rcases hleast.lt_or_eq with hq | rfl
  · have hm := hp.normal hq
    by_cases hr : 2 ^ (52 + q) ≤ r
    · have := lt_of_two_zpow_lt (hr.trans_lt hM.lt_two_zpow)
      omega
    · have hbottom := lt_of_two_zpow_lt ((h.two_zpow_lt hm).trans hM.lt_two_zpow)
      rcases (show (M.log2 : Int) + e = 51 + q ∨ 52 + q ≤ M.log2 + e by omega) with hbelow | habove
      · exact .inr ⟨by omega, h.eq_first_of_below hm hr, hq, not_le.mp hr⟩
      · exact .inl (by omega)
  · omega

theorem shiftToTargetExponent_eq {a : Accuracy} (h : e ≤ max ((M.log2 : Int) + e - 52) (-1074)) :
    shiftToTargetExponent .binary64 M e a =
      (ExtendedMantissa.ofMantissaAndAccuracy M a >>>
          (max ((M.log2 : Int) + e - 52) (-1074) - e).toNat,
        max ((M.log2 : Int) + e - 52) (-1074)) := by
  simp only [shiftToTargetExponent, shiftToExponent, targetExponent_eq, Prod.mk.injEq, true_and]
  omega

/-- A significand that is not too long for its exponent stays as it is. -/
theorem shiftToTargetExponent_of_lt (hm : m < 2 ^ 53) (hq : -1074 ≤ q) :
    shiftToTargetExponent .binary64 m q .exact = (⟨m, false, false⟩, q) := by
  have hlog : m.log2 ≤ 52 := by
    rcases Nat.eq_zero_or_pos m with rfl | hpos
    · decide
    · exact Nat.le_of_lt_succ ((Nat.log2_lt (by omega)).mpr hm)
  have hshift : (max ((m.log2 : Int) + q - 52) (-1074) - q).toNat = 0 := by omega
  simp only [shiftToTargetExponent, shiftToExponent, targetExponent_eq, hshift]
  simp [ExtendedMantissa.ofMantissaAndAccuracy]
  rfl

/-- A significand that rounding has made one bit too long loses its last bit, which is zero. -/
theorem shiftToTargetExponent_carry (hq : -1074 ≤ q) :
    shiftToTargetExponent .binary64 (2 ^ 53) q .exact = (⟨2 ^ 52, false, false⟩, q + 1) := by
  have hlog : (2 ^ 53 : Nat).log2 = 53 := Nat.log2_two_pow
  have hshift : (max (((2 ^ 53 : Nat).log2 : Int) + q - 52) (-1074) - q).toNat = 1 := by
    rw [hlog]
    omega
  simp only [shiftToTargetExponent, shiftToExponent, targetExponent_eq, hshift]
  rfl

/-- Rounding shifts, rounds to a whole number, and shifts again. -/
theorem roundWithAccuracy_of_shifts {em em' : ExtendedMantissa} {n : Nat} {e₁ e₂ : Int}
    (first : shiftToTargetExponent .binary64 M e accuracy = (em, e₁))
    (rounded : em.roundedMantissa = n)
    (second : shiftToTargetExponent .binary64 n e₁ .exact = (em', e₂)) (hpos : 0 < em'.mantissa) :
    roundWithAccuracy .binary64 s M e accuracy = .finite s em'.mantissa e₂ hpos := by
  simp [roundWithAccuracy, first, rounded, second, hpos.ne']

/-- Just below the first number of a binade there are twice as many numbers. -/
theorem Rounds.nearestEven_carry (h : Rounds (2 ^ 52) q r) (hq : -1074 < q)
    (hr : r < 2 ^ (52 + q)) : NearestEven (r / 2 ^ (q - 1)) (2 ^ 53) := by
  have hlow := h.low
  have hdouble : r / 2 ^ (q - 1) = 2 * (r / 2 ^ q) := by
    rw [zpow_sub₀ (by norm_num), zpow_one]
    field_simp
  have hhigh : r / 2 ^ q < 2 ^ 52 := by
    rw [zpow_add₀ (by norm_num)] at hr
    exact (div_lt_iff₀ (two_zpow_pos q)).mpr hr
  rw [if_pos ⟨rfl, hq⟩] at hlow
  push_cast at hlow
  rw [hdouble]
  refine ⟨?_, .inl (by push_cast; linarith)⟩
  rcases hlow with hlow | ⟨hlow, -⟩
  · exact .inl (by push_cast; linarith)
  · exact .inr ⟨by push_cast; linarith, by decide⟩

/-- **Rounding finds the number.**  If `m * 2 ^ q` is the number nearest to `r`, then rounding gives
it from every significand that locates `r` exactly enough. -/
theorem roundWithAccuracy_eq (hp : Shaped m q) (h : Rounds m q r)
    (hM : Locates M accuracy (r / 2 ^ e)) (hzero : M = 0 → e ≤ -1074)
    (he : e ≤ max ((M.log2 : Int) + e - 52) (-1074)) :
    roundWithAccuracy .binary64 s M e accuracy = .finite s m q hp.pos := by
  have hshift := shiftToTargetExponent_eq (a := accuracy) he
  have htarget := h.target hp hM hzero
  generalize max ((M.log2 : Int) + e - 52) (-1074) = t at he hshift htarget
  have hlocated := (hM.extended.shiftRight (t - e).toNat).nearestEven
  have hscale : r / 2 ^ e / 2 ^ (t - e).toNat = r / 2 ^ t := by
    rw [div_div, ← zpow_natCast, ← zpow_add₀ (by norm_num)]
    congr 2
    omega
  rw [hscale] at hlocated
  rcases htarget with rfl | ⟨rfl, rfl, hq, hr⟩
  · exact roundWithAccuracy_of_shifts hshift (hlocated.unique h.nearestEven)
      (shiftToTargetExponent_of_lt hp.below hp.least) hp.pos
  · have hcarry := h.nearestEven_carry hq hr
    have hsecond := shiftToTargetExponent_carry (q := q - 1) (by omega)
    rw [sub_add_cancel] at hsecond
    exact roundWithAccuracy_of_shifts hshift (hlocated.unique hcarry) hsecond hp.pos

/-- A number of at most half of the least one is rounded to zero. -/
theorem roundWithAccuracy_of_tiny (hr : r ≤ 2 ^ (-1075 : Int))
    (hM : Locates M accuracy (r / 2 ^ e)) (hzero : M = 0 → e ≤ -1074)
    (he : e ≤ max ((M.log2 : Int) + e - 52) (-1074)) :
    roundWithAccuracy .binary64 s M e accuracy = .zero s := by
  have htarget : max ((M.log2 : Int) + e - 52) (-1074) = -1074 := by
    rcases Nat.eq_zero_or_pos M with rfl | hpos
    · have := hzero rfl
      simp [Nat.log2_zero]
      omega
    · have htop := (hM.two_zpow_le (by omega)).trans hr
      have := (zpow_le_zpow_iff_right₀ (by norm_num : (1 : ℚ) < 2)).mp htop
      omega
  have hshift := shiftToTargetExponent_eq (a := accuracy) he
  rw [htarget] at he hshift
  have hshifted := hM.extended.shiftRight (-1074 - e).toNat
  have hscale : r / 2 ^ e / 2 ^ (-1074 - e).toNat = r / 2 ^ (-1074 : Int) := by
    rw [div_div, ← zpow_natCast, ← zpow_add₀ (by norm_num)]
    congr 2
    omega
  rw [hscale] at hshifted
  have hhalf : r / 2 ^ (-1074 : Int) ≤ 1 / 2 := by
    rw [div_le_iff₀ (two_zpow_pos _)]
    refine hr.trans_eq ?_
    rw [show (-1075 : Int) = -1 + -1074 by norm_num, zpow_add₀ (by norm_num)]
    norm_num
  have hnonneg : 0 ≤ r / 2 ^ (-1074 : Int) := (Nat.cast_nonneg _).trans hshifted.bounds.1
  have hnone : NearestEven (r / 2 ^ (-1074 : Int)) 0 := by
    refine ⟨.inl ?_, ?_⟩
    · rw [Nat.cast_zero]
      linarith
    · rw [Nat.cast_zero, zero_add]
      exact hhalf.lt_or_eq.imp_right fun h => ⟨h, Even.zero⟩
  have hrounded : ExtendedMantissa.roundedMantissa _ = 0 := hshifted.nearestEven.unique hnone
  have hsecond := shiftToTargetExponent_of_lt (m := 0) (by norm_num) (le_refl (-1074 : Int))
  simp [roundWithAccuracy, hshift, hrounded, hsecond]

/-! ## The operations that round -/

theorem roundWithAccuracy_eq_of_long (hp : Shaped m q) (h : Rounds m q r)
    (hM : Locates M accuracy (r / 2 ^ e)) (hlong : 52 ≤ M.log2) :
    roundWithAccuracy .binary64 s M e accuracy = .finite s m q hp.pos := by
  refine roundWithAccuracy_eq hp h hM ?_ (by omega)
  rintro rfl
  simp [Nat.log2_zero] at hlong

theorem log2_mul_two_pow (hM : M ≠ 0) (k : Nat) : (M * 2 ^ k).log2 = M.log2 + k := by
  refine (Nat.log2_eq_iff (by positivity)).mpr ⟨?_, ?_⟩
  · rw [pow_add]
    exact Nat.mul_le_mul_right _ (Nat.log2_self_le hM)
  · rw [add_right_comm, pow_add]
    exact Nat.mul_lt_mul_of_pos_right Nat.lt_log2_self (by positivity)

theorem zpow_shift (M : Nat) (e : Int) (k : Nat) :
    ((M * 2 ^ k : Nat) : ℚ) = M * 2 ^ e / 2 ^ (e - k) := by
  rw [zpow_sub₀ (by norm_num), zpow_natCast]
  have := (two_zpow_pos e).ne'
  push_cast
  field_simp

/-- A significand that is moved to a smaller exponent. -/
theorem zpow_lowered (M : Nat) {e e' : Int} (h : e' ≤ e) :
    ((M * 2 ^ (e - e').toNat : Nat) : ℚ) * 2 ^ e' = M * 2 ^ e := by
  have hexponent : e - ((e - e').toNat : Int) = e' := by omega
  rw [zpow_shift M e, hexponent, div_mul_cancel₀ _ (two_zpow_pos e').ne']

/-- Rounding from `M * 2 ^ e`. -/
theorem round_eq (hp : Shaped m q) (h : Rounds m q (M * 2 ^ e)) (hM : M ≠ 0) :
    round .binary64 s M e = .finite s m q hp.pos := by
  simp only [Float.Model.UnpackedFloat.round, targetExponent_eq, decreaseExponent, Nat.shiftLeft_eq]
  generalize hk : (e - max ((M.log2 : Int) + e - 52) (-1074)).toNat = k
  have hlog := log2_mul_two_pow hM k
  have hlocates : Locates (M * 2 ^ k) .exact ((M : ℚ) * 2 ^ e / 2 ^ (e - k)) :=
    (zpow_shift M e k).symm
  refine roundWithAccuracy_eq hp h hlocates ?_ ?_
  · intro hzero
    exact absurd hzero (by positivity)
  · rw [hlog]
    omega

theorem Rounds.self (m : Nat) (q : Int) : Rounds m q (m * 2 ^ q) := by
  have hself : (m : ℚ) * 2 ^ q / 2 ^ q = m := mul_div_cancel_right₀ _ (two_zpow_pos q).ne'
  refine ⟨.inl ?_, .inl ?_⟩
  · rw [hself]
    split <;> linarith
  · rw [hself]
    linarith

/-- A quotient lies where the division with remainder says. -/
theorem locates_div (a : Nat) {b : Nat} (hb : 0 < b) :
    Locates (a / b) (accuracyOfFraction (a % b) b) ((a : ℚ) / b) := by
  have hb' : (0 : ℚ) < b := by exact_mod_cast hb
  have hsum : (a : ℚ) / b = (a / b : Nat) + (a % b : Nat) / b := by
    rw [div_eq_iff hb'.ne', add_mul, div_mul_cancel₀ _ hb'.ne']
    exact_mod_cast (Nat.div_add_mod' a b).symm
  have hlt : ((a % b : Nat) : ℚ) / b < 1 := by
    rw [div_lt_one hb']
    exact_mod_cast Nat.mod_lt a hb
  rw [hsum]
  generalize a % b = c at hlt ⊢
  unfold accuracyOfFraction
  split
  · next h => simp [Locates, h]
  · next h =>
    have hpos : (0 : ℚ) < c / b := div_pos (by exact_mod_cast Nat.pos_of_ne_zero h) hb'
    cases hcompare : compare (2 * c) b with
    | lt =>
      have hhalf : (c : ℚ) / b < 1 / 2 := by
        rw [div_lt_div_iff₀ hb' (by norm_num)]
        have := Nat.compare_eq_lt.mp hcompare
        exact_mod_cast (by omega)
      exact ⟨by linarith, by linarith⟩
    | eq =>
      have hhalf : (c : ℚ) / b = 1 / 2 := by
        rw [div_eq_div_iff hb'.ne' (by norm_num)]
        have := Nat.compare_eq_eq.mp hcompare
        exact_mod_cast (by omega)
      show _ = _
      rw [hhalf]
    | gt =>
      have hhalf : 1 / 2 < (c : ℚ) / b := by
        rw [div_lt_div_iff₀ (by norm_num) hb']
        have := Nat.compare_eq_gt.mp hcompare
        exact_mod_cast (by omega)
      exact ⟨by linarith, by linarith⟩

section

variable {m₁ m₂ : Nat} {q₁ q₂ : Int} {s₁ s₂ : Sign} {h₁ : 0 < m₁} {h₂ : 0 < m₂}

theorem mul_eq (hp : Shaped m q) (h : Rounds m q (m₁ * 2 ^ q₁ * (m₂ * 2 ^ q₂)))
    (hlong : 52 ≤ (m₁ * m₂).log2) :
    mul .binary64 (.finite s₁ m₁ q₁ h₁) (.finite s₂ m₂ q₂ h₂) = .finite (s₁ * s₂) m q hp.pos := by
  refine roundWithAccuracy_eq_of_long hp h ?_ hlong
  have h1 := (two_zpow_pos q₁).ne'
  have h2 := (two_zpow_pos q₂).ne'
  show _ = _
  rw [zpow_add₀ (by norm_num)]
  push_cast
  field_simp

theorem normalize_of_pos {M : Nat} (hM : 0 < M) (e : Int) (s : Sign) :
    Float.Model.UnpackedFloat.normalize .binary64 M e s = round .binary64 .positive M e := by
  have hcompare : compare (M : Int) 0 = .gt := compare_gt_iff_gt.mpr (by exact_mod_cast hM)
  rw [Float.Model.UnpackedFloat.normalize, hcompare]
  rfl

/-- A sum of positive numbers is rounded from the significand that they have together. -/
theorem add_eq (hp : Shaped m q) (h : Rounds m q (m₁ * 2 ^ q₁ + m₂ * 2 ^ q₂)) :
    add .binary64 (.finite .positive m₁ q₁ h₁) (.finite .positive m₂ q₂ h₂) =
      .finite .positive m q hp.pos := by
  rw [← zpow_lowered m₁ (min_le_left q₁ q₂), ← zpow_lowered m₂ (min_le_right q₁ q₂),
    ← add_mul, ← Nat.cast_add] at h
  have hpos : 0 < m₁ * 2 ^ (q₁ - min q₁ q₂).toNat + m₂ * 2 ^ (q₂ - min q₁ q₂).toNat := by
    positivity
  rw [← round_eq hp h hpos.ne', ← normalize_of_pos hpos _ .positive]
  simp only [add, decreaseExponent, Nat.shiftLeft_eq, Sign.apply, Nat.cast_add]

/-- A quotient is rounded from a pair that locates it exactly enough. -/
theorem div_located : ∃ M e accuracy,
    div .binary64 (.finite s₁ m₁ q₁ h₁) (.finite s₂ m₂ q₂ h₂) =
      roundWithAccuracy .binary64 (s₁ / s₂) M e accuracy ∧
    Locates M accuracy (m₁ * 2 ^ q₁ / (m₂ * 2 ^ q₂) / 2 ^ e) ∧ (M = 0 → e ≤ -1074) ∧
      e ≤ max ((M.log2 : Int) + e - 52) (-1074) := by
  have htarget (n : Int) : Format.binary64.targetExponent n = max (n - 53) (-1074) := rfl
  simp only [div, divCore, totalExponent, htarget, Nat.shiftLeft_eq]
  generalize ht : min (q₁ - q₂)
    (max ((m₁.log2 : Int) + 1 + q₁ - ((m₂.log2 : Int) + 1 + q₂) - 53) (-1074)) = t
  generalize hk : (q₁ - q₂ - t).toNat = k
  refine ⟨_, t, _, rfl, ?_, ?_⟩
  · have hdiv := locates_div (m₁ * 2 ^ k) h₂
    have hscale : ((m₁ * 2 ^ k : Nat) : ℚ) / m₂ = m₁ * 2 ^ q₁ / (m₂ * 2 ^ q₂) / 2 ^ t := by
      have hsum : q₁ = q₂ + t + k := by omega
      have h2 := (two_zpow_pos q₂).ne'
      have h3 := (two_zpow_pos t).ne'
      rw [hsum, zpow_add₀ (by norm_num), zpow_add₀ (by norm_num), zpow_natCast]
      push_cast
      field_simp
    rwa [hscale] at hdiv
  rcases le_or_gt t (-1074) with hsmall | hlarge
  · exact ⟨fun _ => hsmall, by omega⟩
  · -- the quotient has 53 bits or more
    have hlow : 2 ^ (m₁.log2 + k) ≤ m₁ * 2 ^ k := by
      rw [pow_add]
      exact Nat.mul_le_mul_right _ (Nat.log2_self_le h₁.ne')
    have hhigh : 2 ^ 52 * m₂ ≤ 2 ^ (m₁.log2 + k) := by
      calc 2 ^ 52 * m₂ ≤ 2 ^ 52 * 2 ^ (m₂.log2 + 1) :=
            Nat.mul_le_mul_left _ Nat.lt_log2_self.le
        _ = 2 ^ (52 + (m₂.log2 + 1)) := (pow_add _ _ _).symm
        _ ≤ 2 ^ (m₁.log2 + k) := Nat.pow_le_pow_right (by norm_num) (by omega)
    have hquotient : 2 ^ 52 ≤ m₁ * 2 ^ k / m₂ := (Nat.le_div_iff_mul_le h₂).mpr (hhigh.trans hlow)
    have hlong : 52 ≤ (m₁ * 2 ^ k / m₂).log2 := (Nat.le_log2 (by omega)).mpr hquotient
    exact ⟨fun hzero => by omega, by omega⟩

theorem div_eq (hp : Shaped m q) (h : Rounds m q (m₁ * 2 ^ q₁ / (m₂ * 2 ^ q₂))) :
    div .binary64 (.finite s₁ m₁ q₁ h₁) (.finite s₂ m₂ q₂ h₂) = .finite (s₁ / s₂) m q hp.pos := by
  obtain ⟨M, e, accuracy, hdiv, hM, hzero, he⟩ := div_located
  rw [hdiv, roundWithAccuracy_eq hp h hM hzero he]

theorem div_of_tiny (h : (m₁ * 2 ^ q₁ / (m₂ * 2 ^ q₂) : ℚ) ≤ 2 ^ (-1075 : Int)) :
    div .binary64 (.finite s₁ m₁ q₁ h₁) (.finite s₂ m₂ q₂ h₂) = .zero (s₁ / s₂) := by
  obtain ⟨M, e, accuracy, hdiv, hM, hzero, he⟩ := div_located
  rw [hdiv, roundWithAccuracy_of_tiny h hM hzero he]

end

end

end DeskCalculator.Binary64
