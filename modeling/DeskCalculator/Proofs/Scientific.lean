import DeskCalculator.Decimal.Numeral
import DeskCalculator.Proofs.Rounding

/-!
# DeskCalculator.Proofs.Scientific — a decimal is read as the number that it is rounded to

`scientific n e` goes one of two ways.  When both the digits and the power of ten are numbers
themselves it multiplies or divides these two; otherwise it rounds a product or a quotient of
naturals.  Either way, if `n * 10 ^ e` is rounded to `m * 2 ^ q`, that is the result.
-/

namespace DeskCalculator.Binary64

open Float.Model (Format totalExponent)
open Float.Model.UnpackedFloat

section

variable {m : Nat} {q : Int} {x y : Float}

theorem nearest_eq (s : Sign) (M : Nat) (e : Int) :
    nearest s M e = ofParts (round .binary64 s M e) := rfl

/-- A significand of at most 53 bits can be moved to the left until it has all of them. -/
theorem exists_proper {n : Nat} {e : Int} (hn : 0 < n) (hshort : n < 2 ^ 53) (he : -1022 ≤ e)
    (hsmall : (n : ℚ) * 2 ^ e < 2 ^ (1024 : Int)) :
    ∃ m q, Proper m q ∧ 2 ^ 52 ≤ m ∧ (m : ℚ) * 2 ^ q = n * 2 ^ e := by
  have hlog : n.log2 ≤ 52 := Nat.le_of_lt_succ ((Nat.log2_lt hn.ne').mpr hshort)
  obtain ⟨k, hk⟩ := Nat.exists_eq_add_of_le hlog
  have hlow : 2 ^ 52 ≤ n * 2 ^ k := by
    rw [hk, pow_add]
    exact Nat.mul_le_mul_right _ (Nat.log2_self_le hn.ne')
  have hhigh : n * 2 ^ k < 2 ^ 53 := by
    calc n * 2 ^ k < 2 ^ (n.log2 + 1) * 2 ^ k :=
          Nat.mul_lt_mul_of_pos_right Nat.lt_log2_self (by positivity)
      _ = 2 ^ 53 := by
          rw [← pow_add]
          congr 1
          omega
  have hvalue : ((n * 2 ^ k : Nat) : ℚ) * 2 ^ (e - k) = n * 2 ^ e := by
    rw [zpow_shift n e k]
    exact div_mul_cancel₀ _ (two_zpow_pos _).ne'
  have hgreatest : (2 : ℚ) ^ (52 + (e - k)) < 2 ^ (1024 : Int) := by
    have hlow : (2 : ℚ) ^ (52 : Int) ≤ (n * 2 ^ k : Nat) := by exact_mod_cast hlow
    calc (2 : ℚ) ^ (52 + (e - k)) = 2 ^ (52 : Int) * 2 ^ (e - k) := zpow_add₀ (by norm_num) _ _
      _ ≤ (n * 2 ^ k : Nat) * 2 ^ (e - k) := mul_le_mul_of_nonneg_right hlow (two_zpow_pos _).le
      _ < 2 ^ (1024 : Int) := hvalue ▸ hsmall
  have hexponent := lt_of_two_zpow_lt hgreatest
  exact ⟨_, _, ⟨by omega, hhigh, by omega, by omega, fun _ => hlow⟩, hlow, hvalue⟩

/-- The parts of a short significand with an exponent. -/
theorem parts_nearest (s : Sign) {n : Nat} {e : Int} (hn : 0 < n) (hshort : n < 2 ^ 53)
    (he : -1022 ≤ e) (he' : e ≤ 971) : ∃ (m : Nat) (q : Int) (hp : Proper m q),
      parts (nearest s n e) = .finite s m q hp.pos ∧ 2 ^ 52 ≤ m ∧ (m : ℚ) * 2 ^ q = n * 2 ^ e := by
  have hsmall : (n : ℚ) * 2 ^ e < 2 ^ (1024 : Int) := by
    have hshort : (n : ℚ) < 2 ^ (53 : Int) := by exact_mod_cast hshort
    calc (n : ℚ) * 2 ^ e < 2 ^ (53 : Int) * 2 ^ e := mul_lt_mul_of_pos_right hshort (two_zpow_pos e)
      _ = 2 ^ (53 + e) := (zpow_add₀ (by norm_num) _ _).symm
      _ ≤ 2 ^ (1024 : Int) := zpow_le_zpow_right₀ (by norm_num) (by omega)
  obtain ⟨m, q, hp, hlow, hvalue⟩ := exists_proper hn hshort he hsmall
  have hrounds : Rounds m q (n * 2 ^ e) := hvalue ▸ Rounds.self m q
  refine ⟨m, q, hp, ?_, hlow, hvalue⟩
  rw [nearest_eq, round_eq hp.shaped hrounds hn.ne', parts_ofParts (.finite s hp)]

/-- A natural number that fits a word is converted to the number nearest to it. -/
theorem toFloat_toUInt64 {n : Nat} (hn : 0 < n) (hword : n < 2 ^ 64) :
    n.toUInt64.toFloat = nearest .positive n 0 := by
  have hsmall : n.toUInt64.toNat = n := Nat.mod_eq_of_lt hword
  have hpos : compare (n : Int) 0 = .gt := by
    rw [Int.compare_eq_gt]
    omega
  have hround : ofUInt64 .binary64 n.toUInt64 = round .binary64 .positive n 0 := by
    simp only [ofUInt64, Float.Model.UnpackedFloat.ofNat, ofInt, hsmall,
      Float.Model.UnpackedFloat.normalize, hpos, Int.toNat_natCast]
  show ofParts (ofUInt64 .binary64 n.toUInt64) = _
  rw [hround]
  rfl

/-- A natural number of at most 53 bits is converted as it is. -/
theorem parts_ofNat {n : Nat} (hn : 0 < n) (hshort : n < 2 ^ 53) :
    ∃ (m : Nat) (q : Int) (hp : Proper m q),
      parts n.toUInt64.toFloat = .finite .positive m q hp.pos ∧ 2 ^ 52 ≤ m ∧
        (m : ℚ) * 2 ^ q = n := by
  obtain ⟨m, q, hp, hparts, hlong, hvalue⟩ :=
    parts_nearest .positive (e := 0) hn hshort (by norm_num) (by norm_num)
  refine ⟨m, q, hp, ?_, hlong, by simpa using hvalue⟩
  rw [toFloat_toUInt64 hn (by omega), hparts]

theorem powerOfTen_eq : ∀ k : Fin 23,
    Float.exactlyRepresentablePowersOfTen[k] = nearest .positive (5 ^ k.val) k.val := by
  decide +kernel

/-- The table of the powers of ten is exact. -/
theorem parts_powerOfTen {k : Nat} (hk : k < 23) :
    ∃ (m : Nat) (q : Int) (hp : Proper m q),
      parts (Float.exactlyRepresentablePowersOfTen[k]) = .finite .positive m q hp.pos ∧
        (m : ℚ) * 2 ^ q = 10 ^ k := by
  have hshort : 5 ^ k < 2 ^ 53 :=
    (Nat.pow_le_pow_right (by norm_num) (show k ≤ 22 by omega)).trans_lt (by norm_num)
  obtain ⟨m, q, hp, hparts, -, hvalue⟩ :=
    parts_nearest .positive (e := k) (by positivity) hshort (by omega) (by omega)
  refine ⟨m, q, hp, (powerOfTen_eq ⟨k, hk⟩).symm ▸ hparts, ?_⟩
  rw [hvalue, zpow_natCast]
  push_cast
  rw [← mul_pow]
  norm_num

theorem mul_parts {m₁ m₂ : Nat} {q₁ q₂ : Int} {s₁ s₂ : Sign} {h₁ : 0 < m₁} {h₂ : 0 < m₂}
    (hx : parts x = .finite s₁ m₁ q₁ h₁) (hy : parts y = .finite s₂ m₂ q₂ h₂) (hp : Shaped m q)
    (h : Rounds m q (m₁ * 2 ^ q₁ * (m₂ * 2 ^ q₂))) (hlong : 2 ^ 52 ≤ m₁) :
    x * y = ofParts (.finite (s₁ * s₂) m q hp.pos) := by
  have hlog : 52 ≤ (m₁ * m₂).log2 :=
    (Nat.le_log2 (by positivity)).mpr (hlong.trans (Nat.le_mul_of_pos_right _ h₂))
  show ofParts (mul .binary64 (parts x) (parts y)) = _
  rw [hx, hy, mul_eq hp h hlog]

theorem div_parts {m₁ m₂ : Nat} {q₁ q₂ : Int} {s₁ s₂ : Sign} {h₁ : 0 < m₁} {h₂ : 0 < m₂}
    (hx : parts x = .finite s₁ m₁ q₁ h₁) (hy : parts y = .finite s₂ m₂ q₂ h₂) (hp : Shaped m q)
    (h : Rounds m q (m₁ * 2 ^ q₁ / (m₂ * 2 ^ q₂))) :
    x / y = ofParts (.finite (s₁ / s₂) m q hp.pos) := by
  show ofParts (div .binary64 (parts x) (parts y)) = _
  rw [hx, hy, div_eq hp h]

/-- What is rounded to a number is above half of the least one. -/
theorem Rounds.half_least_lt (hp : Shaped m q) {r : ℚ} (h : Rounds m q r) :
    2 ^ (-1075 : Int) < r := by
  have hm : (1 : ℚ) ≤ m := by exact_mod_cast hp.pos
  have hlow : (1 : ℚ) / 2 < r / 2 ^ q := by
    rcases h.nearestEven.low with h | ⟨h, heven⟩
    · linarith
    · have hne : m ≠ 1 := by
        rintro rfl
        exact absurd heven (by decide)
      have htwo : (2 : ℚ) ≤ m := by exact_mod_cast (show 2 ≤ m by have := hp.pos; omega)
      linarith
  rw [lt_div_iff₀ (two_zpow_pos q)] at hlow
  have hle : (2 : ℚ) ^ (-1074 : Int) ≤ 2 ^ q := zpow_le_zpow_right₀ (by norm_num) hp.least
  calc (2 : ℚ) ^ (-1075 : Int) = 1 / 2 * 2 ^ (-1074 : Int) := by
        rw [show (-1075 : Int) = -1 + -1074 by norm_num, zpow_add₀ (by norm_num)]
        norm_num
    _ ≤ 1 / 2 * 2 ^ q := by linarith
    _ < r := hlow

theorem zpow_eq_pow {e : Int} {k : Nat} (h : e = k) (a : ℚ) : a ^ e = a ^ k := by
  rw [h, zpow_natCast]

theorem zpow_eq_inv_pow {e : Int} {k : Nat} (h : e = -k) (a : ℚ) : a ^ e = (a ^ k)⁻¹ := by
  rw [h, zpow_neg, zpow_natCast]

theorem two_zpow_le_ten_zpow {e : Int} (he : 0 ≤ e) : (2 : ℚ) ^ e ≤ 10 ^ e :=
  zpow_le_zpow_left₀ he (by norm_num) (by norm_num)

theorem ten_zpow_le_two_zpow {e : Int} (he : e ≤ 0) : (10 : ℚ) ^ e ≤ 2 ^ e := by
  have h := two_zpow_le_ten_zpow (e := -e) (by omega)
  rw [zpow_neg, zpow_neg] at h
  exact (inv_le_inv₀ (two_zpow_pos e) (zpow_pos (by norm_num) e)).mp h

end

end DeskCalculator.Binary64

namespace DeskCalculator.Numeral
open Binary64
open Float.Model.UnpackedFloat

/-- How the exponent is passed on by the long way. -/
theorem signed_natAbs (e : Int) :
    (if decide (e < 0) then Int.negOfNat e.natAbs else .ofNat e.natAbs) = e := by
  split
  · next hneg =>
    have := of_decide_eq_true hneg
    rw [Int.negOfNat_eq]
    show -(e.natAbs : Int) = e
    omega
  · next hneg =>
    have : ¬ e < 0 := by simpa using hneg
    show (e.natAbs : Int) = e
    omega

/-- The long way is gone when the digits or the power of ten are not exact. -/
theorem scientific_of_long {n : Nat} {e : Int} (h : ¬ (n < 2 ^ 53 ∧ e.natAbs ≤ 22)) :
    scientific n e = ofParts (Float.Model.UnpackedFloat.ofScientific .binary64 n e) := by
  unfold scientific Float.ofScientific
  rw [dif_neg h]
  dsimp only
  rw [signed_natAbs]
  rfl

section

variable {n m : Nat} {e q : Int} (hn : 0 < n) (hp : Shaped m q)
include hn hp

/-- The short way: the digits and the power of ten are both exact. -/
theorem ofScientific_fast (h : Rounds m q (n * 10 ^ e)) (hshort : n < 2 ^ 53) (he : e.natAbs < 23) :
    (if e < 0 then n.toUInt64.toFloat / Float.exactlyRepresentablePowersOfTen[e.natAbs]
      else n.toUInt64.toFloat * Float.exactlyRepresentablePowersOfTen[e.natAbs]) =
    ofParts (.finite .positive m q hp.pos) := by
  obtain ⟨m₁, q₁, hp₁, hparts₁, hlong, hvalue₁⟩ := parts_ofNat hn hshort
  obtain ⟨m₂, q₂, hp₂, hparts₂, hvalue₂⟩ := parts_powerOfTen he
  split
  · next hneg =>
    have hten : (10 : ℚ) ^ e = (10 ^ e.natAbs)⁻¹ := zpow_eq_inv_pow (by omega) 10
    refine div_parts hparts₁ hparts₂ hp ?_
    rwa [hvalue₁, hvalue₂, div_eq_mul_inv, ← hten]
  · next hneg =>
    have hten : (10 : ℚ) ^ e = 10 ^ e.natAbs := zpow_eq_pow (by omega) 10
    refine mul_parts hparts₁ hparts₂ hp ?_ hlong
    rwa [hvalue₁, hvalue₂, ← hten]

/-- Decimals that are so large that they are not even tried. -/
theorem exponent_of_large (h : Rounds m q (n * 10 ^ e)) (he : 2 ^ 11 < e) : 972 ≤ q := by
  have hone : (1 : ℚ) ≤ n := by exact_mod_cast hn
  have hten : (2 : ℚ) ^ e ≤ 10 ^ e := two_zpow_le_ten_zpow (by omega)
  have hbelow : (n : ℚ) * 10 ^ e < 2 ^ (53 + q) := h.lt_two_zpow hp.below
  have hpos := two_zpow_pos e
  have hlt : (2 : ℚ) ^ e < 2 ^ (53 + q) := by nlinarith
  have := lt_of_two_zpow_lt hlt
  omega

/-- What is rounded to a number is not so small that it is not even tried. -/
theorem le_exponent (h : Rounds m q (n * 10 ^ e)) : -(2 ^ 11 + (n.log2 : Int)) ≤ e := by
  by_contra hsmall
  have hten : (10 : ℚ) ^ e ≤ 2 ^ e := ten_zpow_le_two_zpow (by omega)
  have hlow := h.half_least_lt hp
  have hlog : (n : ℚ) < 2 ^ ((n.log2 : Int) + 1) := by exact_mod_cast (Nat.lt_log2_self (n := n))
  have hprod : (n : ℚ) * 10 ^ e < 2 ^ ((n.log2 : Int) + 1) * 2 ^ e := by
    have hone : (1 : ℚ) ≤ n := by exact_mod_cast hn
    have hpos := two_zpow_pos e
    calc (n : ℚ) * 10 ^ e ≤ n * 2 ^ e := by nlinarith
      _ < _ := by nlinarith
  rw [← zpow_add₀ (by norm_num)] at hprod
  have := lt_of_two_zpow_lt (hlow.trans hprod)
  omega

omit hn in
/-- The digits are moved up so far that the product is long enough. -/
theorem mul_shifted {k : Nat} {h₁ : 0 < n <<< 53} {h₂ : 0 < k} (h : Rounds m q (n * k)) :
    mul .binary64 (.finite .positive (n <<< 53) (-53) h₁) (.finite .positive k 0 h₂) =
      .finite .positive m q hp.pos := by
  generalize hshift : n <<< 53 = N at h₁
  rw [Nat.shiftLeft_eq] at hshift
  have hvalue : (N : ℚ) * 2 ^ (-53 : Int) * (k * 2 ^ (0 : Int)) = n * k := by
    rw [← hshift, zpow_neg, zpow_zero, mul_one]
    push_cast
    field_simp
  have hlong : 2 ^ 52 ≤ N * k :=
    (show 2 ^ 52 ≤ N by omega).trans (Nat.le_mul_of_pos_right _ h₂)
  exact mul_eq hp (hvalue ▸ h) ((Nat.le_log2 (by positivity)).mpr hlong)

/-- The long way, through a product or a quotient of naturals. -/
theorem ofScientific_slow (h : Rounds m q (n * 10 ^ e)) :
    ofParts (Float.Model.UnpackedFloat.ofScientific .binary64 n e) =
      ofParts (.finite .positive m q hp.pos) := by
  have hsmall := le_exponent hn hp h
  unfold Float.Model.UnpackedFloat.ofScientific
  rw [dif_neg hn.ne']
  split
  · next hlarge =>
    exact (ofParts_of_large .positive hp (exponent_of_large hn hp h hlarge)).symm
  rw [if_neg (by simpa using hsmall)]
  split
  · next he =>
    have hten : (10 : ℚ) ^ e = 10 ^ e.toNat := zpow_eq_pow (by omega) 10
    refine congrArg ofParts (mul_shifted hp ?_)
    rwa [Nat.cast_pow, Nat.cast_ofNat, ← hten]
  · next he =>
    have hten : (10 : ℚ) ^ e = (10 ^ (-e).toNat)⁻¹ := zpow_eq_inv_pow (by omega) 10
    refine congrArg ofParts (div_eq hp ?_)
    rwa [zpow_zero, mul_one, mul_one, div_eq_mul_inv, Nat.cast_pow, Nat.cast_ofNat, ← hten]

/-- **A decimal is read as the number that it is rounded to.** -/
theorem scientific_eq (h : Rounds m q (n * 10 ^ e)) :
    scientific n e = ofParts (.finite .positive m q hp.pos) := by
  by_cases hshort : n < 2 ^ 53 ∧ e.natAbs ≤ 22
  · rw [← ofScientific_fast hn hp h hshort.1 (Nat.lt_succ_of_le hshort.2)]
    unfold scientific Float.ofScientific
    rw [dif_pos hshort]
    by_cases hneg : e < 0
    · simp only [hneg, decide_true, if_true]
      rfl
    · simp only [hneg, decide_false, if_false]
      rfl
  · rw [scientific_of_long hshort, ofScientific_slow hn hp h]

end

end DeskCalculator.Numeral
