import DeskCalculator.Proofs.Indeterminacy
import DeskCalculator.Proofs.Infinities
import DeskCalculator.Proofs.TenPowers
import DeskCalculator.Proofs.WholeRounding

/-!
# DeskCalculator.Proofs.DecimalPlaces — rounding to decimal places, for every precision of 32 bits

A precision below `2 ^ 31` is the exponent of the scale.  The scale or the product may be too large,
and then the number is left alone; otherwise the scale is a number of at least one, so that scaling
back does not leave the range.

A precision from `2 ^ 31` on is read as a negative exponent.  Nothing is too large then, and what is
found is not the number but a multiple of a power of ten near to it; and where the scale has gone
down to zero there is nothing to divide by.

* `isFinite_roundTo`, `roundTo_of_overflow`: the precisions below `2 ^ 31`.
* `exists_roundedToTens`, `roundTo_of_zero_scale`: the others.
* `roundTo_every_precision`: what becomes of every number at every precision.
-/

namespace DeskCalculator.Binary64

open Float.Model.UnpackedFloat (mul)

/-! ## A scale that is the infinity or zero -/

section

variable {x : Float} {p : UInt32}

/-- The product with an infinite scale is not finite. -/
theorem roundTo_of_infinite_scale (hscale : tenPower p.toInt32.toInt = infinity .positive) :
    roundTo x p = x := by
  have hproduct : (x * infinity .positive).isFinite = false := by
    by_contra h
    have hinfinity := (isFinite_of_mul (Bool.not_eq_false _ ▸ h)).2
    rw [isFinite_eq, parts_infinity] at hinfinity
    cases hinfinity
  simp [roundTo, hscale, hproduct]

/-- Where the scale is zero there is a zero to be divided by it. -/
theorem roundTo_of_zero_scale (hx : x.isFinite = true)
    (hscale : tenPower p.toInt32.toInt = zero .positive) : roundTo x p = notANumber := by
  obtain ⟨s, hsized⟩ := exists_sized hx
  have hproduct : x * zero .positive = zero s := by
    show ofParts (mul .binary64 (parts x) (parts (zero .positive))) = _
    rw [zero_eq s, parts_zero]
    generalize |toRat x| = a at hsized
    cases hsized with
    | zero => rw [parts_zero]; cases s <;> rfl
    | finite hp hparts => rw [hparts]; cases s <;> rfl
  have hfinite : (zero s).isFinite = true := Sized.zero.isFinite
  have hround : roundHalfAway (zero s) = zero s := by rw [roundHalfAway, parts_zero]
  have hquotient : zero s / zero .positive = notANumber :=
    (div_eq_notANumber_iff (zero_ne_notANumber s) (zero_ne_notANumber _)).mpr
      (.inl ⟨s, .positive, rfl, rfl⟩)
  simp [roundTo, hscale, hproduct, hx, hfinite, hround, hquotient]

end

/-! ## Decimal places -/

section

variable {x : Float} {p : UInt32}

/-- The scale up to the 308th place. -/
theorem exists_scale (hp : p.toNat ≤ 308) :
    ∃ w, Denotes (tenPower p.toInt32.toInt) w ∧ 1 ≤ w ∧ Within p.toNat w (10 ^ p.toNat) := by
  rw [toInt_of_lt (by omega)]
  exact exists_tenPower hp

/-- The scale from the 309th place on. -/
theorem scale_of_large (hlarge : 309 ≤ p.toNat) (hp : p.toNat < 2 ^ 31) :
    tenPower p.toInt32.toInt = infinity .positive := by
  rw [toInt_of_lt hp]
  exact tenPower_of_large hlarge

/-- A scale of at least one does not lead out of the range when it is divided by. -/
theorem Scaled.isFinite {s : Sign} {a w : ℚ} {y : Float} (h : Scaled s a w x y)
    (hx : x.isFinite = true) (hw : 1 ≤ w) : y.isFinite = true := by
  cases h with
  | unchanged same large => exact same ▸ hx
  | @rounded u n up hu low high hn down =>
    cases down with
    | finite hv round => exact hv.isFinite
    | overflow large => exact absurd (large.trans (div_le_self n.cast_nonneg hw)) (not_le.mpr hn)

theorem Scaled.eq_of_tooLarge {s : Sign} {a w : ℚ} {y : Float} (h : Scaled s a w x y)
    (hlarge : 3 / 2 * tooLarge ≤ a * w) : y = x := by
  cases h with
  | unchanged same large => exact same
  | @rounded u n up hu low high hn down =>
    have hup := (abs_le.mp (up.near (by linarith [tooLarge_pos]))).1
    have hten : (10 : ℚ) ≤ tooLarge :=
      (le_self_pow₀ (by norm_num) (by norm_num)).trans ten_pow_lt_tooLarge.le
    have hleast : (2 : ℚ) ^ (-1075 : Int) ≤ 1 := zpow_le_one_of_nonpos₀ (by norm_num) (by norm_num)
    linarith

/-- A precision that is not negative leaves every finite number finite. -/
theorem isFinite_roundTo (hx : x.isFinite = true) (hp : p.toNat < 2 ^ 31) :
    (roundTo x p).isFinite = true := by
  rcases le_or_gt p.toNat 308 with hsmall | hlarge
  · obtain ⟨s, hsized⟩ := exists_sized hx
    obtain ⟨w, hw, hone, -⟩ := exists_scale hsmall
    exact (roundTo_of_scale hsized hw).isFinite hx hone
  · rw [roundTo_of_infinite_scale (scale_of_large hlarge hp)]
    exact hx

theorem two_mul_tooLarge_le_two_pow : 2 * tooLarge ≤ 2 ^ 1025 :=
  calc 2 * tooLarge ≤ 2 * 2 ^ (1024 : Int) :=
        mul_le_mul_of_nonneg_left tooLarge_lt_two_zpow.le (by norm_num)
    _ = 2 ^ (1025 : Int) := (zpow_one_add₀ two_ne_zero 1024).symm
    _ = 2 ^ 1025 := zpow_ofNat 2 1025

/-- What is too large when it is scaled up is left alone. -/
theorem roundTo_of_overflow (hx : x.isFinite = true) (hp : p.toNat < 2 ^ 31)
    (hlarge : 2 ^ 1025 ≤ |toRat x| * 10 ^ p.toNat) : roundTo x p = x := by
  rcases le_or_gt p.toNat 308 with hsmall | hinfinite
  · obtain ⟨s, hsized⟩ := exists_sized hx
    obtain ⟨w, hw, hone, hnear⟩ := exists_scale hsmall
    refine (roundTo_of_scale hsized hw).eq_of_tooLarge ?_
    have hproduct : |toRat x| * 10 ^ p.toNat ≤ |toRat x| * w * (1 + 1 / 10 ^ 13) := by
      have hgrain := grain_pow_le_near_one (k := p.toNat) (by omega)
      rw [mul_assoc]
      exact mul_le_mul_of_nonneg_left (hnear.low.trans (by gcongr)) (abs_nonneg _)
    have htop := two_mul_tooLarge_le_two_pow
    have hpositive := tooLarge_pos
    generalize (2 : ℚ) ^ 1025 = bound at hlarge htop
    linarith
  · exact roundTo_of_infinite_scale (scale_of_large hinfinite hp)

end

/-! ## Negative exponents -/

/-- `y` is the number `x` rounded to `n * 10 ^ k`, a multiple of a power of ten, up to one part in
`10 ^ 12`; the multiple may be too large. -/
structure RoundedToTens (k n : Nat) (x y : Float) : Prop where
  sign : isNegative y = isNegative x
  near : |n * 10 ^ k - (|toRat x|)| ≤ 10 ^ k / 2 + (10 ^ k + |toRat x|) / 10 ^ 12
  value : y.isFinite = true ∧ |(|toRat y|) - n * 10 ^ k| ≤ n * 10 ^ k / 10 ^ 12 ∨
    y.isInf = true ∧ tooLarge ≤ n * 10 ^ k * (1 + 1 / 10 ^ 12)

section

variable {x y : Float} {p : UInt32} {s : Sign} {k n : Nat} {a w : ℚ}

/-- The scale and the power of ten make one, up to the roundings. -/
theorem scale_unit (hw : Within (k + 3) w (1 / 10 ^ k)) (hk : k ≤ 308) :
    1 - 1 / 10 ^ 13 ≤ w * 10 ^ k ∧ w * 10 ^ k ≤ 1 + 1 / 10 ^ 13 := by
  have hgrain := grain_pow_le_near_one (k := k + 3) (by omega)
  have hpos : (0 : ℚ) < 10 ^ k := by positivity
  have hpositive := hw.pos (by positivity)
  have hlow : 1 ≤ w * 10 ^ k * (1 + 1 / 10 ^ 13) := by
    rw [mul_right_comm, ← div_le_iff₀ hpos]
    exact hw.low.trans (by gcongr)
  have hhigh : w * 10 ^ k ≤ 1 + 1 / 10 ^ 13 := by
    rw [← le_div_iff₀ hpos]
    refine hw.high.trans ?_
    rw [one_div_mul_eq_div]
    gcongr
  exact ⟨by linarith, hhigh⟩

theorem half_least_le : (2 : ℚ) ^ (-1075 : Int) ≤ 1 / 10 ^ 15 :=
  calc (2 : ℚ) ^ (-1075 : Int) ≤ 2 ^ (-50 : Int) := zpow_le_zpow_right₀ (by norm_num) (by norm_num)
    _ ≤ 1 / 10 ^ 15 := by norm_num

/-- The multiple is the one that the size is nearest to. -/
theorem multiple_near {u : ℚ} (ha : 0 ≤ a) (hw : Within (k + 3) w (1 / 10 ^ k)) (hk : k ≤ 308)
    (up : RoundedSize (a * w) u) (low : (n : ℚ) - 1 / 2 ≤ u)
    (high : u < n + 1 / 2) : |n * 10 ^ k - a| ≤ 10 ^ k / 2 + (10 ^ k + a) / 10 ^ 12 := by
  obtain ⟨hunit, hunit'⟩ := scale_unit hw hk
  obtain ⟨hup, hup'⟩ := abs_le.mp (up.near (mul_nonneg ha (hw.pos (by positivity)).le))
  have hleast := half_least_le
  generalize (2 : ℚ) ^ (-1075 : Int) = least at hup hup' hleast
  have hpos : (0 : ℚ) < 10 ^ k := by positivity
  generalize (10 : ℚ) ^ k = step at hunit hunit' hpos ⊢
  -- everything is scaled back, after which it is linear
  have hsize := mul_le_mul_of_nonneg_left hunit ha
  have hsize' := mul_le_mul_of_nonneg_left hunit' ha
  have hlow := mul_le_mul_of_nonneg_right (low.trans (sub_le_iff_le_add.mp hup')) hpos.le
  have hhigh := mul_le_mul_of_nonneg_right ((le_sub_iff_add_le.mp hup).trans high.le) hpos.le
  have hsmall := mul_le_mul_of_nonneg_right hleast hpos.le
  rw [abs_le]
  constructor <;> linarith

/-- What is divided by the scale is the multiple. -/
theorem quotient_value (hw : Within (k + 3) w (1 / 10 ^ k)) (hk : k ≤ 308)
    (down : Computed s (n / w) y) :
    isNegative y = (s == .negative) ∧
      (y.isFinite = true ∧ |(|toRat y|) - n * 10 ^ k| ≤ n * 10 ^ k / 10 ^ 12 ∨
        y.isInf = true ∧ tooLarge ≤ n * 10 ^ k * (1 + 1 / 10 ^ 12)) := by
  obtain ⟨hunit, hunit'⟩ := scale_unit hw hk
  have hpositive := hw.pos (by positivity)
  have hquotient : 0 ≤ n / w := by positivity
  have hmultiple : n / w * (w * 10 ^ k) = n * 10 ^ k := by
    rw [← mul_assoc, div_mul_cancel₀ _ hpositive.ne']
  have hlow := mul_le_mul_of_nonneg_left hunit hquotient
  have hhigh := mul_le_mul_of_nonneg_left hunit' hquotient
  rw [hmultiple] at hlow hhigh
  cases down with
  | overflow large =>
    refine ⟨?_, .inr ⟨?_, ?_⟩⟩
    · rw [isNegative, parts_infinity]
    · show (parts (infinity s)).isInf = true
      rw [parts_infinity]
      rfl
    · linarith
  | @finite _ v hv round =>
    refine ⟨hv.isNegative_eq, .inl ⟨hv.isFinite, ?_⟩⟩
    rw [hv.abs_toRat]
    rcases Nat.eq_zero_or_pos n with rfl | hn
    · rw [Nat.cast_zero, zero_div] at round
      simp [round.eq_zero]
    · have hone : (1 : ℚ) ≤ n * 10 ^ k :=
        one_le_mul_of_one_le_of_one_le (by exact_mod_cast hn) (one_le_pow₀ (by norm_num))
      obtain ⟨hnear, hnear'⟩ := abs_le.mp (round.near hquotient)
      have hleast := half_least_le
      rw [abs_le]
      constructor <;> linarith

/-- A negative exponent down to `-308` gives a multiple of a power of ten. -/
theorem exists_roundedToTens (hx : x.isFinite = true) (hp : p.toInt32.toInt = -(k : Int))
    (hpos : 0 < k) (hk : k ≤ 308) : ∃ n, RoundedToTens k n x (roundTo x p) := by
  obtain ⟨s, hsized⟩ := exists_sized hx
  obtain ⟨w, hw, hone, hnear⟩ := exists_tenPower_neg hpos hk
  rw [← hp] at hw
  have hscaled := roundTo_of_scale hsized hw
  cases hscaled with
  | unchanged same large =>
    exact absurd (large.trans (mul_le_of_le_one_right hsized.nonneg hone))
      (not_le.mpr hsized.lt_tooLarge)
  | @rounded u n up hu low high hn down =>
    obtain ⟨hsign, hvalue⟩ := quotient_value hnear hk down
    exact ⟨n, hsign.trans hsized.isNegative_eq.symm,
      multiple_near hsized.nonneg hnear hk up low high, hvalue⟩

theorem RoundedToTens.ne_notANumber (h : RoundedToTens k n x y) : y ≠ notANumber := by
  rintro rfl
  rcases h.value with ⟨h, -⟩ | ⟨h, -⟩
  · rw [isFinite_eq, parts_notANumber] at h
    cases h
  · exact absurd h (by decide +kernel)

/-- A number that is not among the largest stays finite. -/
theorem RoundedToTens.isFinite (h : RoundedToTens k n x y) (hk : k ≤ 308)
    (hx : |toRat x| ≤ 10 ^ 308) : y.isFinite = true := by
  rcases h.value with ⟨h, -⟩ | ⟨-, hlarge⟩
  · exact h
  · have hnear := (abs_le.mp h.near).2
    have hten : (10 : ℚ) ^ k ≤ 10 ^ 308 := pow_le_pow_right₀ (by norm_num) hk
    have htop := seventeen_tenths_lt_tooLarge
    have hpos : (0 : ℚ) < 10 ^ 308 := by positivity
    generalize (10 : ℚ) ^ 308 = ten at hx hten htop hpos
    generalize (n : ℚ) * 10 ^ k = multiple at hnear hlarge
    generalize (10 : ℚ) ^ k = step at hnear hten
    linarith

/-- What is clearly nearer to zero than to the first multiple goes to zero. -/
theorem RoundedToTens.toRat_eq_zero (h : RoundedToTens k n x y)
    (hx : 5 * |toRat x| ≤ 2 * 10 ^ k) : toRat y = 0 := by
  have hn : n = 0 := by
    by_contra hne
    have hone : (1 : ℚ) ≤ n := by exact_mod_cast Nat.pos_of_ne_zero hne
    have hstep : (10 : ℚ) ^ k ≤ n * 10 ^ k := le_mul_of_one_le_left (by positivity) hone
    have hpos : (0 : ℚ) < 10 ^ k := by positivity
    linarith [(abs_le.mp h.near).2]
  have hvalue := h.value
  rw [hn, Nat.cast_zero, zero_mul, zero_div, sub_zero, abs_abs, zero_mul] at hvalue
  rcases hvalue with ⟨-, hsize⟩ | ⟨-, hlarge⟩
  · exact abs_nonpos_iff.mp hsize
  · exact absurd hlarge (not_le.mpr tooLarge_pos)

end

/-! ## Every precision -/

/-- **Every number at every precision.**  What is not finite is left alone.  A finite number stays
finite at every precision below `2 ^ 31`, and is left alone if it is too large when it is scaled up.
From `2 ^ 31` on a precision `2 ^ 32 - k` is the exponent `-k`: down to `-308` the number is rounded
to a multiple of `10 ^ k`, so that a small one goes to zero and only one of the largest can go to
the infinity; below that every finite number becomes NaN. -/
theorem roundTo_every_precision (x : Float) (p : UInt32) :
    (x.isFinite = false → roundTo x p = x) ∧
    (x.isFinite = true →
      (p.toNat < 2 ^ 31 → (roundTo x p).isFinite = true ∧
        (2 ^ 1025 ≤ |toRat x| * 10 ^ p.toNat → roundTo x p = x)) ∧
      ∀ k, p.toNat + k = 2 ^ 32 → k ≤ 2 ^ 31 →
        (k ≤ 308 → (∃ n, RoundedToTens k n x (roundTo x p)) ∧ roundTo x p ≠ notANumber ∧
          (|toRat x| ≤ 10 ^ 308 → (roundTo x p).isFinite = true) ∧
          (5 * |toRat x| ≤ 2 * 10 ^ k → toRat (roundTo x p) = 0)) ∧
        (308 < k → roundTo x p = notANumber)) := by
  refine ⟨roundTo_of_not_finite, fun hx => ⟨fun hp => ?_, fun k hk hsigned => ?_⟩⟩
  · exact ⟨isFinite_roundTo hx hp, roundTo_of_overflow hx hp⟩
  · have hexponent := toInt_of_add_eq hk hsigned
    have hpos : 0 < k := by
      have hword := p.toNat_lt
      omega
    refine ⟨fun hsmall => ?_, fun hlarge => ?_⟩
    · obtain ⟨n, hn⟩ := exists_roundedToTens hx hexponent hpos hsmall
      exact ⟨⟨n, hn⟩, hn.ne_notANumber, hn.isFinite hsmall, hn.toRat_eq_zero⟩
    · exact roundTo_of_zero_scale hx (hexponent ▸ tenPower_neg_of_large hlarge)

theorem two_pow_le_scaled_one {k : Nat} (hk : 400 ≤ k) : (2 : ℚ) ^ 1025 ≤ |toRat 1| * 10 ^ k := by
  have hone : |toRat 1| = 1 := by
    rw [abs_toRat parts_one]
    norm_num
  rw [hone, one_mul]
  calc (2 : ℚ) ^ 1025 ≤ 2 ^ (3 * 400) := pow_le_pow_right₀ (by norm_num) (by norm_num)
    _ = (2 ^ 3) ^ 400 := pow_mul 2 3 400
    _ ≤ 10 ^ 400 := pow_le_pow_left₀ (by norm_num) (by norm_num) 400
    _ ≤ 10 ^ k := pow_le_pow_right₀ (by norm_num) hk

/-- At 400 places the scale is the infinity; at `2 ^ 32 - 400` it is zero. -/
theorem roundTo_one_at_both_ends :
    (Float.isFinite 1 = true ∧ (400 : UInt32).toNat < 2 ^ 31 ∧
      2 ^ 1025 ≤ |toRat 1| * 10 ^ (400 : UInt32).toNat ∧ roundTo 1 400 = 1) ∧
    (4294966896 : UInt32).toNat + 400 = 2 ^ 32 ∧ roundTo 1 4294966896 = notANumber := by
  have hone : Float.isFinite 1 = true := by decide +kernel
  have hlarge := two_pow_le_scaled_one (k := (400 : UInt32).toNat) (by decide)
  obtain ⟨-, hup⟩ := roundTo_every_precision 1 400
  obtain ⟨-, hdown⟩ := roundTo_every_precision 1 4294966896
  refine ⟨⟨hone, by decide, hlarge, ((hup hone).1 (by decide)).2 hlarge⟩, by decide, ?_⟩
  exact ((hdown hone).2 400 (by decide) (by norm_num)).2 (by norm_num)

/-- A precision that is read as a negative exponent changes a finite number whose exact product is
far too large: the number one becomes NaN or zero, and the largest number becomes infinite. -/
theorem roundTo_wraps_around :
    (Float.isFinite 1 = true ∧ 2 ^ 1025 ≤ |toRat 1| * 10 ^ (4294966987 : UInt32).toNat ∧
      roundTo 1 4294966987 = notANumber ∧ notANumber ≠ 1 ∧ notANumber.isFinite = false) ∧
    (2 ^ 1025 ≤ |toRat 1| * 10 ^ (4294967295 : UInt32).toNat ∧
      roundTo 1 4294967295 = 0 ∧ (0 : Float) ≠ 1) ∧
    Float.isFinite 1.7976931348623157e308 = true ∧
      roundTo 1.7976931348623157e308 4294966988 = infinity .positive := by
  have hnan : Float.isFinite 1 = true ∧ roundTo 1 4294966987 = notANumber ∧ notANumber ≠ 1 ∧
      notANumber.isFinite = false := by
    decide +kernel
  have hzero : roundTo 1 4294967295 = 0 ∧ (0 : Float) ≠ 1 := by decide +kernel
  have hinfinity : Float.isFinite 1.7976931348623157e308 = true ∧
      roundTo 1.7976931348623157e308 4294966988 = infinity .positive := by
    decide +kernel
  exact ⟨⟨hnan.1, two_pow_le_scaled_one (by decide), hnan.2⟩,
    ⟨two_pow_le_scaled_one (by decide), hzero⟩, hinfinity⟩

end DeskCalculator.Binary64
