import DeskCalculator.Binary64.Parts
import Mathlib

/-!
# DeskCalculator.Proofs.Packing — a number and its parts are two views of one thing

The parts of a number are NaN, an infinity, a zero, or a significand and an exponent that are
`Proper` for each other.  Every word is unpacked to such parts, and such parts are packed into a
word that is unpacked to them; so a number is told from its parts, and they can be any such parts.
-/

namespace DeskCalculator.Binary64

open Float.Model (Format UnpackedFloat)
open Float.Model.UnpackedFloat

/-- The number with the given parts. -/
def ofParts (u : Parts) : Float := .ofModel (.pack u)

/-- The significands and exponents of the finite numbers other than zero. -/
structure Proper (m : Nat) (q : Int) : Prop where
  pos : 0 < m
  below : m < 2 ^ 53
  least : -1074 ≤ q
  greatest : q ≤ 971
  normal : -1074 < q → 2 ^ 52 ≤ m

/-- The same without the bound above: the significands and exponents that rounding comes to. -/
structure Shaped (m : Nat) (q : Int) : Prop where
  pos : 0 < m
  below : m < 2 ^ 53
  least : -1074 ≤ q
  normal : -1074 < q → 2 ^ 52 ≤ m

theorem Proper.shaped {m : Nat} {q : Int} (h : Proper m q) : Shaped m q :=
  ⟨h.pos, h.below, h.least, h.normal⟩

theorem Shaped.proper {m : Nat} {q : Int} (h : Shaped m q) (greatest : q ≤ 971) : Proper m q :=
  ⟨h.pos, h.below, h.least, greatest, h.normal⟩

/-- The significand and the exponent of the number one. -/
theorem proper_one : Proper (2 ^ 52) (-52) :=
  ⟨by norm_num, by norm_num, by norm_num, by norm_num, fun _ => le_rfl⟩

/-- The parts that a number can have. -/
inductive Canonical : Parts → Prop
  | notANumber : Canonical .notANumber
  | infinity (s : Sign) : Canonical (.infinity s)
  | zero (s : Sign) : Canonical (.zero s)
  | finite (s : Sign) {m : Nat} {q : Int} (h : Proper m q) : Canonical (.finite s m q h.pos)

theorem one_append_toNat (fraction : BitVec 52) :
    (1#1 ++ fraction).toNat = 2 ^ 52 + fraction.toNat := by
  have h := fraction.isLt
  rw [BitVec.toNat_append, Nat.shiftLeft_eq, Nat.or_comm]
  simpa [Nat.add_comm] using Nat.or_two_pow_eq_add_of_lt h

/-! ## Packing and unpacking -/

theorem log2_eq_of_normal {m : Nat} (low : 2 ^ 52 ≤ m) (high : m < 2 ^ 53) : m.log2 = 52 :=
  (Nat.log2_eq_iff (by omega)).mpr ⟨low, high⟩

theorem log2_lt_of_subnormal {m : Nat} (h : m < 2 ^ 52) : m.log2 < 52 := by
  rcases Nat.eq_zero_or_pos m with rfl | hm
  · decide
  · exact (Nat.log2_lt (by omega)).mpr h

/-- A normal number is packed with its exponent moved up, and without the first bit of its
significand. -/
theorem pack_normal {s : Sign} {m : Nat} {q : Int} (hm : 0 < m) (low : 2 ^ 52 ≤ m)
    (high : m < 2 ^ 53) (least : -1074 ≤ q) (greatest : q ≤ 971) :
    pack .binary64 (.finite s m q hm) =
      packComponents .binary64 s (.ofNat 11 (q + 1075).toNat) (.ofNat 52 m) := by
  have hlog := log2_eq_of_normal low high
  have hbias : q + (Format.exponentBias .binary64 : Int) + 52 = q + 1075 := by
    show q + 1023 + 52 = q + 1075
    omega
  have hfits : ¬ 2 ^ 11 ≤ (q + 1075).toNat + 1 := by omega
  have hbits : 52 + 1 = Format.mantissaBits .binary64 := rfl
  simp only [pack, hlog]
  rw [if_pos hbits]
  simp [hbias]
  omega

theorem pack_subnormal {s : Sign} {m : Nat} (hm : 0 < m) (high : m < 2 ^ 52) :
    pack .binary64 (.finite s m (-1074) hm) = packComponents .binary64 s 0 (.ofNat 52 m) := by
  have hlog := log2_lt_of_subnormal high
  have hbits : m.log2 + 1 ≠ Format.mantissaBits .binary64 := by
    show m.log2 + 1 ≠ 53
    omega
  simp only [pack]
  rw [if_neg hbits]
  rfl

section

variable (s : Sign) {exponent : BitVec 11} {fraction : BitVec 52}

theorem unpack_normal (hzero : exponent ≠ 0) (hones : exponent ≠ -1#11) (fraction : BitVec 52) :
    unpack .binary64 (packComponents .binary64 s exponent fraction) =
      .finite s (2 ^ 52 + fraction.toNat) (exponent.toNat - 1075) (by omega) := by
  simp only [unpack, unpackMantissa_packComponents, unpackExponent_packComponents,
    unpackSign_packComponents, Sign.ofBitVec_toBitVec, if_neg hones]
  rw [if_neg (by simpa using hzero)]
  simp only [one_append_toNat]
  rfl

theorem unpack_subnormal (h : 0 < fraction.toNat) :
    unpack .binary64 (packComponents .binary64 s 0 fraction) =
      .finite s fraction.toNat (-1074) h := by
  have hne : fraction ≠ 0#52 := by
    rintro rfl
    cases h
  simp only [unpack, unpackMantissa_packComponents, unpackExponent_packComponents,
    unpackSign_packComponents, Sign.ofBitVec_toBitVec]
  rw [if_neg (by decide), if_pos (by decide), dif_neg hne]
  rfl

theorem unpack_notANumber (h : fraction ≠ 0) :
    unpack .binary64 (packComponents .binary64 s (-1) fraction) = .notANumber := by
  simp only [unpack, unpackMantissa_packComponents, unpackExponent_packComponents]
  rw [if_pos (by decide), if_neg (by simpa using h)]

theorem unpack_infinity :
    unpack .binary64 (packComponents .binary64 s (-1) 0) = .infinity s := by
  cases s <;> rfl

theorem unpack_zero : unpack .binary64 (packComponents .binary64 s 0 0) = .zero s := by
  cases s <;> rfl

end

theorem unpack_pack {u : Parts} (h : Canonical u) : unpack .binary64 (pack .binary64 u) = u := by
  cases h with
  | notANumber => rfl
  | infinity s => exact unpack_infinity s
  | zero s => exact unpack_zero s
  | @finite s m q h =>
    have hbelow := h.below
    have hleast := h.least
    have hgreatest := h.greatest
    rcases Nat.lt_or_ge m (2 ^ 52) with hm | hm
    · obtain rfl : q = -1074 := by
        by_contra hq
        have := h.normal (by omega)
        omega
      have hfraction : (BitVec.ofNat 52 m).toNat = m := Nat.mod_eq_of_lt hm
      have hpos : 0 < (BitVec.ofNat 52 m).toNat := by
        rw [hfraction]
        exact h.pos
      rw [pack_subnormal h.pos hm, unpack_subnormal s hpos]
      congr 1
    · have hexponent : (BitVec.ofNat 11 (q + 1075).toNat).toNat = (q + 1075).toNat := by
        rw [BitVec.toNat_ofNat]
        omega
      have hfraction : 2 ^ 52 + (BitVec.ofNat 52 m).toNat = m := by
        rw [BitVec.toNat_ofNat]
        omega
      rw [pack_normal h.pos hm hbelow hleast hgreatest, unpack_normal]
      · simp only [hexponent, hfraction]
        congr 1
        omega
      · intro hzero
        have := congrArg BitVec.toNat hzero
        rw [hexponent] at this
        simp at this
        omega
      · intro hones
        have := congrArg BitVec.toNat hones
        rw [hexponent] at this
        simp at this
        omega

/-- What a word says is canonical. -/
theorem canonical_packComponents (s : Sign) (exponent : BitVec 11) (fraction : BitVec 52) :
    Canonical (unpack .binary64 (packComponents .binary64 s exponent fraction)) := by
  have hexponent := exponent.isLt
  have hfraction := fraction.isLt
  by_cases hones : exponent = -1
  · subst hones
    by_cases hf : fraction = 0
    · subst hf
      rw [unpack_infinity]
      exact .infinity s
    · rw [unpack_notANumber s hf]
      exact .notANumber
  by_cases hzero : exponent = 0
  · subst hzero
    by_cases hf : fraction = 0
    · subst hf
      rw [unpack_zero]
      exact .zero s
    · have hpos : 0 < fraction.toNat := by
        by_contra h
        exact hf (BitVec.eq_of_toNat_eq (by simpa using h))
      rw [unpack_subnormal s hpos]
      exact .finite s ⟨hpos, by omega, by omega, by omega, by omega⟩
  · have hlow : exponent.toNat ≠ 0 := fun h => hzero (BitVec.eq_of_toNat_eq (by simpa using h))
    have hhigh : exponent.toNat ≠ 2047 := fun h => hones (BitVec.eq_of_toNat_eq (by simpa using h))
    rw [unpack_normal s hzero hones]
    exact .finite s ⟨by omega, by omega, by omega, by omega, by omega⟩

/-! ## Numbers -/

theorem canonical_unpack (b : BitVec Format.binary64.numBits) : Canonical (unpack .binary64 b) := by
  rw [← packComponents_unpackSign_unpackExponent_unpackMantissa b]
  exact canonical_packComponents _ _ _

theorem canonical_parts (x : Float) : Canonical (parts x) := canonical_unpack _

@[simp] theorem parts_ofParts {u : Parts} (h : Canonical u) : parts (ofParts u) = u := unpack_pack h

/-- A number whose exponent is too large is packed into an infinity. -/
theorem ofParts_of_large (s : Sign) {m : Nat} {q : Int} (h : Shaped m q) (hq : 972 ≤ q) :
    ofParts (.finite s m q h.pos) = infinity s := by
  have hlarge : 2 ^ Format.exponentBits .binary64 ≤
      (q + (Format.exponentBias .binary64 : Int) + 52).toNat + 1 := by
    show 2 ^ 11 ≤ (q + 1023 + 52).toNat + 1
    omega
  have hpack : pack .binary64 (.finite s m q h.pos) = pack .binary64 (.infinity s) := by
    simp only [pack]
    exact if_pos hlarge
  simp only [ofParts, infinity, Float.Model.pack, hpack]

/-- A number is told from its parts. -/
@[simp] theorem ofParts_parts (x : Float) : ofParts (parts x) = x := by
  have hbits := pack_unpack_of_valid x.toModel.valid
  simp only [ofParts, parts, Float.Model.pack, Float.Model.unpack, hbits]

theorem eq_of_parts_eq {x y : Float} (h : parts x = parts y) : x = y := by
  rw [← ofParts_parts x, h, ofParts_parts]

/-- The sign of a number is changed in its parts. -/
theorem neg_ofParts {u : Parts} (h : Canonical u) : -ofParts u = ofParts (neg u) := by
  show ofParts (neg (parts (ofParts u))) = _
  rw [parts_ofParts h]

theorem zero_eq (s : Sign) : zero s = ofParts (.zero s) := by
  cases s <;> rfl

theorem parts_zero (s : Sign) : parts (zero s) = .zero s := by
  rw [zero_eq, parts_ofParts (.zero s)]

theorem parts_infinity (s : Sign) : parts (infinity s) = .infinity s := parts_ofParts (.infinity s)

theorem parts_notANumber : parts notANumber = .notANumber := parts_ofParts .notANumber

/-- A number is NaN, an infinity or a zero, or it has a significand. -/
theorem number_cases (x : Float) : x = notANumber ∨ (∃ s, x = infinity s) ∨ (∃ s, x = zero s) ∨
    ∃ s m q, ∃ hp : Proper m q, parts x = .finite s m q hp.pos := by
  have hcanonical := canonical_parts x
  generalize hx : parts x = u at hcanonical
  cases hcanonical with
  | notANumber => exact .inl (eq_of_parts_eq (hx.trans parts_notANumber.symm))
  | infinity s => exact .inr (.inl ⟨s, eq_of_parts_eq (hx.trans (parts_infinity s).symm)⟩)
  | zero s => exact .inr (.inr (.inl ⟨s, eq_of_parts_eq (hx.trans (parts_zero s).symm)⟩))
  | finite s hp => exact .inr (.inr (.inr ⟨s, _, _, hp, rfl⟩))

theorem isFinite_eq (x : Float) : x.isFinite = (parts x).isFinite := rfl

theorem finite_or_infinity_or_nan (x : Float) :
    x.isFinite = true ∨ (∃ s, x = infinity s) ∨ x = notANumber := by
  rw [isFinite_eq]
  rcases number_cases x with hx | hx | ⟨s, rfl⟩ | ⟨s, m, q, hp, hparts⟩
  · exact .inr (.inr hx)
  · exact .inr (.inl hx)
  · rw [parts_zero]
    exact .inl rfl
  · rw [hparts]
    exact .inl rfl

/-- The same number, with a plus sign if it is a zero. -/
def unsigned (x : Float) : Float :=
  match parts x with
  | .zero _ => zero .positive
  | .notANumber | .infinity _ | .finite _ _ _ _ => x

theorem unsigned_eq {x : Float} (h : x ≠ zero .negative) : unsigned x = x := by
  unfold unsigned
  split
  · next s hx =>
    cases s with
    | positive => exact eq_of_parts_eq (hx ▸ parts_zero .positive)
    | negative => exact absurd (eq_of_parts_eq (hx ▸ (parts_zero .negative).symm)) h
  · rfl
  · rfl
  · rfl

@[simp] theorem unsigned_zero (s : Sign) : unsigned (zero s) = zero .positive := by
  simp only [unsigned, parts_zero]

/-! ## Literals -/

theorem zero_literal : (0 : Float) = zero .positive := by decide +kernel

theorem parts_one : parts 1 = .finite .positive (2 ^ 52) (-52) proper_one.pos := by
  have hone : (1 : Float) = ofParts (.finite .positive (2 ^ 52) (-52) proper_one.pos) := by
    decide +kernel
  rw [hone, parts_ofParts (.finite .positive proper_one)]

theorem parts_minusOne : parts (-1) = .finite .negative (2 ^ 52) (-52) proper_one.pos := by
  show parts (ofParts (neg (parts 1))) = _
  rw [parts_one]
  exact parts_ofParts (.finite .negative proper_one)

/-! ## NaN -/

/-- A word whose exponent is not the greatest is not NaN. -/
theorem unpack_ne_notANumber (s : Sign) {exponent : BitVec 11} (h : exponent ≠ -1#11)
    (fraction : BitVec 52) :
    unpack .binary64 (packComponents .binary64 s exponent fraction) ≠ .notANumber := by
  simp only [unpack, unpackMantissa_packComponents, unpackExponent_packComponents,
    unpackSign_packComponents, Sign.ofBitVec_toBitVec, if_neg h]
  split
  · split <;> nofun
  · nofun

theorem exponent_ne {n : Nat} (h : n + 1 < 2 ^ 11) : BitVec.ofNat 11 n ≠ -1#11 := by
  intro hones
  have hword := congrArg BitVec.toNat hones
  rw [BitVec.toNat_ofNat, Nat.mod_eq_of_lt (by omega)] at hword
  have hgreatest : (-1#11 : BitVec 11).toNat = 2047 := rfl
  omega

/-- Nothing but NaN is packed into NaN, canonical or not. -/
theorem ofParts_eq_notANumber {u : Parts} : ofParts u = notANumber ↔ u = .notANumber := by
  refine ⟨fun h => ?_, fun h => h ▸ rfl⟩
  have hunpack : unpack .binary64 (pack .binary64 u) = .notANumber :=
    (congrArg parts h).trans parts_notANumber
  cases u with
  | notANumber => rfl
  | infinity s => cases (unpack_infinity s).symm.trans hunpack
  | zero s => cases (unpack_zero s).symm.trans hunpack
  | finite s m q hm =>
    simp only [pack] at hunpack
    split at hunpack
    · cases (unpack_infinity s).symm.trans hunpack
    · next hfits =>
      split at hunpack
      · exact absurd hunpack (unpack_ne_notANumber s (exponent_ne (not_le.mp hfits)) _)
      · exact absurd hunpack (unpack_ne_notANumber s (by decide) _)

theorem eq_notANumber_iff {x : Float} : x = notANumber ↔ parts x = .notANumber := by
  rw [← ofParts_eq_notANumber, ofParts_parts]

theorem infinity_ne_notANumber (s : Sign) : infinity s ≠ notANumber := by
  rw [Ne, eq_notANumber_iff, parts_infinity]
  nofun

theorem zero_ne_notANumber (s : Sign) : zero s ≠ notANumber := by
  rw [Ne, eq_notANumber_iff, parts_zero]
  nofun

theorem infinity_ne_zero (s t : Sign) : infinity s ≠ zero t := by
  intro h
  have hparts := congrArg parts h
  rw [parts_infinity, parts_zero] at hparts
  cases hparts

end DeskCalculator.Binary64
