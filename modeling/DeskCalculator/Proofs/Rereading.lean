import DeskCalculator.Proofs.JsonReading

/-!
# DeskCalculator.Proofs.Rereading — how near a number that is read back is to the one written

A finite number is read back as a number with the same sign that is near to it, never as an
infinity, and a short one as itself.  At both ends of the range, where the roundings could lead out
of it, the numbers are few and are computed.

* `Json.Value.toFloat?_ofFloat`: every finite number is read back, as one near to it.
-/

namespace DeskCalculator

open Binary64

namespace Binary64

section

variable {m : Nat} {q : Int} {r : ℚ}

/-- The least number, and the three largest. -/
def Extreme (m : Nat) (q : Int) : Prop := m = 1 ∧ q = -1074 ∨ 2 ^ 53 - 3 ≤ m ∧ q = 971

theorem Rounds.inner_low (h : Rounds m q r) (hm : 2 ≤ m) (hq : -1074 ≤ q) :
    3 * 2 ^ (-1075 : Int) ≤ r := by
  have hm : (2 : ℚ) ≤ m := by exact_mod_cast hm
  have hleast : (2 : ℚ) ^ (-1074 : Int) ≤ 2 ^ q := zpow_le_zpow_right₀ (by norm_num) hq
  calc 3 * (2 : ℚ) ^ (-1075 : Int) = (2 - 1 / 2) * 2 ^ (-1074 : Int) := by
        rw [half_least]
        ring
    _ ≤ (m - 1 / 2) * 2 ^ q := by
        gcongr
        linarith
    _ ≤ r := h.bounds.1

theorem Rounds.inner_high (h : Rounds m q r) (hm : m + 1 ≤ 2 ^ 53) (hq : q ≤ 970) :
    r ≤ (2 ^ 54 - 7) * 2 ^ 970 := by
  have hm : (m : ℚ) + 1 ≤ 2 ^ 53 := by exact_mod_cast hm
  have hle : (2 : ℚ) ^ q ≤ 2 ^ 970 := by
    rw [← zpow_natCast]
    exact zpow_le_zpow_right₀ (by norm_num) hq
  refine h.bounds.2.trans (mul_le_mul ?_ hle (two_zpow_pos q).le (by norm_num))
  norm_num at hm ⊢
  linarith

theorem Rounds.inner_highest (h : Rounds m 971 r) (hm : m + 4 ≤ 2 ^ 53) :
    r ≤ (2 ^ 54 - 7) * 2 ^ 970 := by
  have hm : (m : ℚ) + 4 ≤ 2 ^ 53 := by exact_mod_cast hm
  have hdouble : (2 : ℚ) ^ (971 : Int) = 2 * 2 ^ 970 := by
    rw [zpow_ofNat, pow_succ, mul_comm]
  refine h.bounds.2.trans ?_
  rw [hdouble, ← mul_assoc]
  refine mul_le_mul_of_nonneg_right ?_ (by positivity)
  norm_num at hm ⊢
  linarith

/-- What is rounded to the other numbers is not at the ends of the range. -/
theorem Rounds.inner (h : Rounds m q r) (hp : Proper m q) (hextreme : ¬ Extreme m q) : Inner r := by
  constructor
  · refine h.inner_low ?_ hp.least
    rcases hp.least.lt_or_eq with hq | rfl
    · exact (show 2 ≤ 2 ^ 52 by norm_num).trans (hp.normal hq)
    · exact Nat.lt_of_le_of_ne hp.pos fun hm => hextreme (.inl ⟨hm.symm, rfl⟩)
  · rcases hp.greatest.lt_or_eq with hq | rfl
    · exact h.inner_high hp.below (Int.le_of_lt_add_one hq)
    · refine h.inner_highest ?_
      by_contra hlarge
      exact hextreme (.inr ⟨by omega, rfl⟩)

end

section

variable {p r v w : ℚ}

/-- A number is near to another one, but for the last place. -/
def Near (v w : ℚ) : Prop := |w - v| ≤ 2 ^ (-49 : Int) * v + 2 ^ (-1074 : Int)

theorem near_refl (hv : 0 ≤ v) : Near v v := by
  rw [Near, sub_self, abs_zero]
  positivity

/-- What is rounded to a number is not much larger. -/
theorem RoundedTo.le_mul (h : RoundedTo r v) : r ≤ 151 / 100 * v := by
  have hr := h.pos
  have hleast := h.least_le
  have hlow := (abs_le.mp h.near).1
  have hsmall : (1 + 1 / 2000) * roundoff * r ≤ 1 / 1000 * r :=
    mul_le_mul_of_nonneg_right (by linarith [roundoff_le]) hr.le
  rw [half_least] at hlow
  linarith

/-- Six roundings make an error of less than eight halves of the last place. -/
theorem Within.error (h : Within 6 p r) (hr : 0 < r) : |p - r| ≤ 8 * roundoff * r := by
  have hp := h.pos hr
  have hle := (h.about (by norm_num) hr).2
  have hgrain : grain ^ 6 ≤ 1 + 7 * roundoff := by norm_num [grain, roundoff]
  have hu := roundoff_pos
  have hlow : r ≤ p + 7 * roundoff * p :=
    calc r ≤ p * grain ^ 6 := h.low
      _ ≤ p * (1 + 7 * roundoff) := by gcongr
      _ = p + 7 * roundoff * p := by ring
  have hhigh : p ≤ r + 7 * roundoff * r :=
    calc p ≤ r * grain ^ 6 := h.high
      _ ≤ r * (1 + 7 * roundoff) := by gcongr
      _ = r + 7 * roundoff * r := by ring
  have hroom : 7 * roundoff * p ≤ 7 * roundoff * (1001 / 1000 * r) := by gcongr
  have hpos := mul_pos hu hr
  rw [abs_le]
  constructor <;> linarith

/-- All roundings together. -/
theorem near_of_within (hv : RoundedTo r v) (hnear : Within 6 p r) (hw : RoundedTo p w) :
    Near v w := by
  have hr := hv.pos
  have hu := roundoff_pos
  have hle := (hnear.about (by norm_num) hr).2
  have hv' := hv.le_mul
  have hscale : (2 : ℚ) ^ (-49 : Int) = 16 * roundoff := by norm_num [roundoff]
  calc |w - v| ≤ |w - p| + |p - v| := abs_sub_le _ _ _
    _ ≤ |w - p| + (|p - r| + |v - r|) := by
        rw [abs_sub_comm v r]
        exact add_le_add_right (abs_sub_le _ _ _) _
    _ ≤ (1 + 1 / 2000) * roundoff * p + 2 ^ (-1075 : Int) +
          (8 * roundoff * r + ((1 + 1 / 2000) * roundoff * r + 2 ^ (-1075 : Int))) :=
        add_le_add hw.near (add_le_add (hnear.error hr) hv.near)
    _ ≤ (1 + 1 / 2000) * roundoff * (1001 / 1000 * r) + 2 ^ (-1075 : Int) +
          (8 * roundoff * r + ((1 + 1 / 2000) * roundoff * r + 2 ^ (-1075 : Int))) := by gcongr
    _ ≤ 21 / 2 * roundoff * r + 2 ^ (-1074 : Int) := by
        rw [half_least]
        linarith [mul_pos hu hr]
    _ ≤ 21 / 2 * roundoff * (151 / 100 * v) + 2 ^ (-1074 : Int) := by gcongr
    _ ≤ 2 ^ (-49 : Int) * v + 2 ^ (-1074 : Int) := by
        rw [hscale]
        linarith [mul_pos hu (by linarith : 0 < v)]

end

/-! ## Positive numbers -/

theorem denotes_nearest {m : Nat} {q : Int} (hp : Proper m q) :
    Denotes (nearest .positive m q) (m * 2 ^ q) := by
  rw [nearest_eq, round_eq hp.shaped (.self m q) hp.pos.ne']
  exact denotes_ofParts hp

end Binary64

open Json (toFloat? withSign)

namespace Decimal

section

variable {m : Nat} {q : Int}

/-- The numbers at the ends of the range are read back as one of them. -/
theorem reread_extreme (hp : Proper m q) (h : Extreme m q) :
    ∃ n, Proper n q ∧ toFloat? ⟨none, json.magnitude (shortest json.tie m q)⟩ =
        some (nearest .positive n q) ∧ (n = m ∨ n = m + 1 ∧ 2 ^ 53 - 3 ≤ m) := by
  rcases h with ⟨rfl, rfl⟩ | ⟨hm, rfl⟩
  · exact ⟨1, hp, by decide +kernel, .inl rfl⟩
  · have hbelow := hp.below
    obtain rfl | rfl | rfl : m = 2 ^ 53 - 3 ∨ m = 2 ^ 53 - 2 ∨ m = 2 ^ 53 - 1 := by omega
    · exact ⟨2 ^ 53 - 3, hp, by decide +kernel, .inl rfl⟩
    · refine ⟨2 ^ 53 - 1, ⟨by norm_num, by norm_num, by norm_num, by norm_num, by norm_num⟩,
        by decide +kernel, .inr ⟨by norm_num, hm⟩⟩
    · exact ⟨2 ^ 53 - 1, hp, by decide +kernel, .inl rfl⟩

theorem near_next (hm : 2 ^ 53 - 3 ≤ m) : Near (m * 2 ^ q) ((m + 1 : Nat) * 2 ^ q) := by
  have hpos := two_zpow_pos q
  have hone : 1 ≤ (2 : ℚ) ^ (-49 : Int) * m :=
    calc (1 : ℚ) ≤ 2 ^ (-49 : Int) * (2 ^ 53 - 3 : Nat) := by norm_num
      _ ≤ 2 ^ (-49 : Int) * m := by gcongr
  calc |((m + 1 : Nat) : ℚ) * 2 ^ q - m * 2 ^ q| = 1 * 2 ^ q := by
        rw [Nat.cast_add_one, ← sub_mul, add_sub_cancel_left, one_mul, abs_of_pos hpos]
    _ ≤ 2 ^ (-49 : Int) * m * 2 ^ q := mul_le_mul_of_nonneg_right hone hpos.le
    _ = 2 ^ (-49 : Int) * (m * 2 ^ q) := mul_assoc _ _ _
    _ ≤ 2 ^ (-49 : Int) * (m * 2 ^ q) + 2 ^ (-1074 : Int) :=
        le_add_of_nonneg_right (two_zpow_pos _).le

/-- What is written for a positive number. -/
theorem json_rounds (hp : Proper m q) : 0 < (json.magnitude (shortest json.tie m q)).digits ∧
    Rounds m q (json.magnitude (shortest json.tie m q)).toRat := by
  obtain ⟨-, hrounds⟩ := shortest_rounds json.tie hp.pos q
  rw [← Style.magnitude_toRat json_faithful] at hrounds
  refine ⟨Nat.pos_of_ne_zero fun hzero => ?_, hrounds⟩
  have hpos := (two_zpow_pos _).trans (hrounds.half_least_lt hp.shaped)
  rw [Numeral.Magnitude.toRat_eq, hzero, Nat.cast_zero, zero_mul] at hpos
  exact lt_irrefl _ hpos

/-- What a positive number is read back as. -/
theorem reread_positive (hp : Proper m q) :
    ∃ y w, toFloat? ⟨none, json.magnitude (shortest json.tie m q)⟩ = some y ∧ Denotes y w ∧
      Near (m * 2 ^ q) w := by
  by_cases hextreme : Extreme m q
  · obtain ⟨n, hn, hread, hnear⟩ := reread_extreme hp hextreme
    refine ⟨_, _, hread, denotes_nearest hn, ?_⟩
    rcases hnear with rfl | ⟨rfl, hm⟩
    · exact near_refl (by positivity)
    · exact near_next hm
  · obtain ⟨hpos, hrounds⟩ := json_rounds hp
    have hinner := hrounds.inner hp hextreme
    have hdigits := json_digits_lt (shortest_digits_lt json.tie hp)
    have hroom := json_fits (shortest_digits_lt json.tie hp)
    rw [Numeral.Magnitude.toRat_eq] at hrounds hinner
    generalize json.magnitude (shortest json.tie m q) = mag at *
    obtain ⟨hleast, hgreatest⟩ := Json.exponent_bounds hpos hdigits hinner
    obtain ⟨y, w, p, hy, hw, hround, hnear⟩ :=
      Json.scales_of_digits 2 hpos hdigits hinner
    refine ⟨y, w, ?_, hw, near_of_within ⟨m, q, hp, hrounds, rfl⟩ hnear hround⟩
    rw [Json.toFloat?_of_fits (hroom (by omega)), hy]

end

end Decimal

/-! ## Finite numbers -/

namespace Binary64

/-- One, with a sign. -/
def unit : Sign → ℚ
  | .positive => 1
  | .negative => -1

@[simp] theorem abs_unit (s : Sign) : |unit s| = 1 := by
  cases s <;> simp [unit]

/-- The rational number that a finite number is. -/
def toRat (x : Float) : ℚ :=
  match parts x with
  | .finite s m q _ => unit s * (m * 2 ^ q)
  | .zero _ | .infinity _ | .notANumber => 0

@[simp] theorem toRat_zero (s : Sign) : toRat (zero s) = 0 := by rw [toRat, parts_zero]

/-- `y` is near to the finite number `x`, and has the same sign. -/
structure Beside (x y : Float) : Prop where
  finite : y.isFinite = true
  sign : isNegative y = isNegative x
  near : |toRat y - toRat x| ≤ 2 ^ (-49 : Int) * |toRat x| + 2 ^ (-1074 : Int)

theorem parts_withSign {x : Float} {m : Nat} {q : Int} (hp : Proper m q)
    (h : parts x = .finite .positive m q hp.pos) (s : Sign) :
    parts (withSign s x) = .finite s m q hp.pos := by
  cases s with
  | positive => exact h
  | negative =>
    show parts (-x) = _
    rw [← ofParts_parts x, h, neg_ofParts (.finite .positive hp)]
    exact parts_ofParts (.finite .negative hp)

theorem Beside.refl {x : Float} (h : x.isFinite = true) : Beside x x := by
  refine ⟨h, rfl, ?_⟩
  rw [sub_self, abs_zero]
  positivity

theorem toRat_of_parts {x : Float} {s : Sign} {m : Nat} {q : Int} {hm : 0 < m}
    (h : parts x = .finite s m q hm) : toRat x = unit s * (m * 2 ^ q) := by
  rw [toRat, h]

theorem Beside.withSign {x y : Float} {s : Sign} {m : Nat} {q : Int} {hm : 0 < m} {w : ℚ}
    (hx : parts x = .finite s m q hm) (hy : Denotes y w) (hnear : Near (m * 2 ^ q) w) :
    Beside x (Json.withSign s y) := by
  obtain ⟨n, p, hp, hparts, rfl⟩ := hy
  have hsigned := parts_withSign hp hparts s
  refine ⟨?_, ?_, ?_⟩
  · rw [isFinite_eq, hsigned]
    rfl
  · rw [isNegative, isNegative, hsigned, hx]
  · have hpos : (0 : ℚ) ≤ m * 2 ^ q := by positivity
    rw [toRat_of_parts hsigned, toRat_of_parts hx, ← mul_sub, abs_mul, abs_mul, abs_unit, one_mul,
      one_mul, abs_of_nonneg hpos]
    exact hnear

end Binary64

namespace Json.Value

/-- The numbers for which few digits are written. -/
def Brief (x : Float) : Prop := ∀ n ∈ Decimal.json.numeral? x, n.magnitude.Short

instance (x : Float) : Decidable (Brief x) :=
  inferInstanceAs (Decidable (∀ n ∈ Decimal.json.numeral? x, n.magnitude.Short))

/-- The zeros are among them. -/
theorem brief_zero (s : Sign) : Brief (zero s) := by
  cases s <;> decide +kernel

theorem toFloat?_zero (s : Sign) : toFloat? (.number (Decimal.json.zero s)) = some (zero s) := by
  cases s <;> decide +kernel

/-- What a number with a significand is read back as. -/
theorem toFloat?_of_parts {x : Float} {s : Sign} {m : Nat} {q : Int} (hp : Proper m q)
    (hx : parts x = .finite s m q hp.pos) :
    ∃ y, toFloat? (ofFloat x) = some y ∧ Beside x y ∧ (Brief x → y = x) := by
  have hnumeral : Decimal.json.numeral? x = some (Decimal.json.finite s m q) := by
    simp [Decimal.Style.numeral?, hx]
  have hvalue : toFloat? (ofFloat x) =
      (Json.toFloat? ⟨none, Decimal.json.magnitude (Decimal.shortest Decimal.json.tie m q)⟩).map
        (withSign s) := by
    rw [ofFloat, hnumeral]
    exact toFloat?_signed _ s
  obtain ⟨y, w, hread, hw, hnear⟩ := Decimal.reread_positive hp
  refine ⟨withSign s y, ?_, .withSign hx hw hnear, fun hbrief => ?_⟩
  · rw [hvalue, hread]
    rfl
  · -- the same text read the short way gives the number itself
    obtain ⟨hdigits, hrounds⟩ := Decimal.json_rounds hp
    have hshort := hbrief _ hnumeral
    have hfits := Decimal.json_fits (Decimal.shortest_digits_lt Decimal.json.tie hp)
      (hshort.2.trans (by norm_num))
    have hexact := toFloat?_of_short hfits hshort hdigits
    rw [hread, Option.some.injEq, Numeral.Magnitude.value_eq hp hrounds] at hexact
    subst hexact
    refine eq_of_parts_eq ?_
    rw [parts_withSign hp (parts_ofParts (.finite .positive hp)) s, hx]

/-- **Every finite number is read back, as one near to it.** -/
theorem toFloat?_ofFloat {x : Float} (h : x.isFinite = true) :
    ∃ y, toFloat? (ofFloat x) = some y ∧ Beside x y ∧ (Brief x → y = x) := by
  have hcanonical := canonical_parts x
  rw [isFinite_eq] at h
  cases hx : parts x with
  | notANumber | infinity _ =>
    rw [hx] at h
    cases h
  | zero s =>
    obtain rfl : x = zero s := eq_of_parts_eq (hx.trans (parts_zero s).symm)
    have hvalue : ofFloat (zero s) = .number (Decimal.json.zero s) := by
      simp [ofFloat, Decimal.Style.numeral?, hx]
    exact ⟨zero s, hvalue ▸ toFloat?_zero s, .refl h, fun _ => rfl⟩
  | finite s m q hm =>
    rw [hx] at hcanonical
    cases hcanonical with
    | finite _ hp => exact toFloat?_of_parts hp hx

end Json.Value

end DeskCalculator
