import DeskCalculator.Strictness

/-!
# DeskCalculator.Proofs.Numerals — what the readers of numbers take

The readers go from left to right and stop at the first character that does not fit; what they take
is compared here with the texts that numbers are written as.  Each reader of a part is met from two
sides.  What it takes is a well-formed part, and its text with what is left over is the text that
was read (`_sound`).  The text of a well-formed part is taken as a whole, when nothing follows that
could belong to it (`_written`).

* `Numeral.scan_written`: the text of a numeral, with more text behind it, is read as the numeral.
* `Numeral.scan_eq_whole`: the texts that are numerals as a whole.
* `scanInteger_eq_whole`: the texts that are integers of 64 bits as a whole.
-/

namespace DeskCalculator

open Binary64 (Sign)
open Numeral (AllDigits)

/-! ## Signs and digits -/

/-- A text that begins with neither of the signs. -/
def Unsigned (cs : List Char) : Prop := ∀ c, cs.head? = some c → c ≠ '+' ∧ c ≠ '-'

/-- A text that begins with no digit. -/
def Digitless (cs : List Char) : Prop := ∀ c, cs.head? = some c → c.isDigit = false

theorem digitless_nil : Digitless [] := nofun

theorem scanSign_sound (cs : List Char) : writtenSign (scanSign cs).1 ++ (scanSign cs).2 = cs := by
  unfold scanSign
  split <;> rfl

theorem scanSign_written (sign : Option Sign) {cs : List Char} (h : Unsigned cs) :
    scanSign (writtenSign sign ++ cs) = (sign, cs) := by
  rcases sign with _ | _ | _
  · cases cs with
    | nil => rfl
    | cons c cs =>
      obtain ⟨hplus, hminus⟩ := h c rfl
      simp [writtenSign, scanSign, hplus, hminus]
  · rfl
  · rfl

theorem allDigits_takeWhile (cs : List Char) : AllDigits (cs.takeWhile Char.isDigit) :=
  fun _ hc => List.all_eq_true.mp List.all_takeWhile _ hc

section

variable {digits rest : List Char}

theorem takeWhile_digits (hdigits : AllDigits digits) (hrest : Digitless rest) :
    (digits ++ rest).takeWhile Char.isDigit = digits := by
  rw [List.takeWhile_append_of_pos hdigits]
  cases rest with
  | nil => simp
  | cons c rest => simp [hrest c rfl]

theorem dropWhile_digits (hdigits : AllDigits digits) (hrest : Digitless rest) :
    (digits ++ rest).dropWhile Char.isDigit = rest := by
  rw [List.dropWhile_append_of_pos hdigits]
  cases rest with
  | nil => rfl
  | cons c rest => simp [hrest c rfl]

/-- A digit is neither a sign nor the first letter of `Infinity`. -/
theorem ne_of_isDigit {c : Char} (h : c.isDigit) : c ≠ '+' ∧ c ≠ '-' ∧ c ≠ 'I' := by
  refine ⟨?_, ?_, ?_⟩ <;> rintro rfl <;> cases h

theorem takeWhile_allDigits (hdigits : AllDigits digits) :
    digits.takeWhile Char.isDigit = digits := by
  simpa using takeWhile_digits hdigits digitless_nil

theorem dropWhile_allDigits (hdigits : AllDigits digits) :
    digits.dropWhile Char.isDigit = [] := by
  simpa using dropWhile_digits hdigits digitless_nil

/-- A run of digits is not mistaken for a sign. -/
theorem unsigned_of_digits (hdigits : AllDigits digits) (hne : digits ≠ []) (rest : List Char) :
    Unsigned (digits ++ rest) := by
  intro c hc
  obtain ⟨d, digits, rfl⟩ := List.exists_cons_of_ne_nil hne
  obtain rfl : d = c := by simpa using hc
  obtain ⟨hplus, hminus, -⟩ := ne_of_isDigit (hdigits d List.mem_cons_self)
  exact ⟨hplus, hminus⟩

end

namespace Numeral

/-! ## Exponents -/

/-- The letter of an exponent. -/
def Exponent.letter (capital : Bool) : Char := if capital then 'E' else 'e'

/-- What is required of an exponent, if there is one. -/
def ExponentWellFormed (e : Option Exponent) : Prop := ∀ x ∈ e, AllDigits x.digits ∧ x.digits ≠ []

theorem scanExponent_letter (capital : Bool) (cs : List Char) :
    scanExponent (Exponent.letter capital :: cs) =
      let (sign, rest) := scanSign cs
      let digits := rest.takeWhile Char.isDigit
      if digits.isEmpty then (none, Exponent.letter capital :: cs)
      else (some ⟨capital, sign, digits⟩, rest.dropWhile Char.isDigit) := by
  cases capital <;> rfl

/-- An exponent is read only behind its letter. -/
theorem scanExponent_cases (cs : List Char) :
    (∃ capital rest, cs = Exponent.letter capital :: rest) ∨ scanExponent cs = (none, cs) := by
  unfold scanExponent
  split
  · exact .inl ⟨false, _, rfl⟩
  · exact .inl ⟨true, _, rfl⟩
  · exact .inr rfl

theorem scanExponent_sound {cs rest : List Char} {e : Option Exponent}
    (h : scanExponent cs = (e, rest)) :
    ExponentWellFormed e ∧ e.elim [] Exponent.chars ++ rest = cs := by
  have hnone : ExponentWellFormed none := nofun
  rcases scanExponent_cases cs with ⟨capital, behind, rfl⟩ | hcs
  · rw [scanExponent_letter] at h
    dsimp only at h
    split at h
    · cases h
      exact ⟨hnone, rfl⟩
    · next hdigits =>
      cases h
      refine ⟨?_, ?_⟩
      · intro x hx
        cases hx
        exact ⟨allDigits_takeWhile _, by simpa using hdigits⟩
      · have hsign := scanSign_sound behind
        simp [Exponent.chars, Exponent.letter, hsign]
  · rw [hcs] at h
    cases h
    exact ⟨hnone, rfl⟩

/-- A text that begins with nothing by which a numeral could go on. -/
def Ends (cs : List Char) : Prop :=
  ∀ c, cs.head? = some c → c.isDigit = false ∧ c ≠ '.' ∧ c ≠ 'e' ∧ c ≠ 'E'

theorem ends_nil : Ends [] := nofun

theorem ends_cons {c : Char} (h : c.isDigit = false ∧ c ≠ '.' ∧ c ≠ 'e' ∧ c ≠ 'E')
    (cs : List Char) : Ends (c :: cs) := by
  intro d hd
  cases hd
  exact h

theorem Ends.digitless {cs : List Char} (h : Ends cs) : Digitless cs := fun c hc => (h c hc).1

theorem scanExponent_of_ends {rest : List Char} (h : Ends rest) :
    scanExponent rest = (none, rest) := by
  rcases scanExponent_cases rest with ⟨capital, behind, rfl⟩ | hrest
  · obtain ⟨-, -, he, hE⟩ := h _ rfl
    cases capital
    · exact absurd rfl he
    · exact absurd rfl hE
  · exact hrest

theorem scanExponent_written {e : Option Exponent} (h : ExponentWellFormed e) {rest : List Char}
    (hrest : Ends rest) : scanExponent (e.elim [] Exponent.chars ++ rest) = (e, rest) := by
  cases e with
  | none => exact scanExponent_of_ends hrest
  | some x =>
    obtain ⟨hdigits, hne⟩ := h x rfl
    have hchars : (some x).elim [] Exponent.chars ++ rest =
        Exponent.letter x.capital :: (writtenSign x.sign ++ (x.digits ++ rest)) := by
      simp [Exponent.chars, Exponent.letter]
    have hsign := scanSign_written x.sign (unsigned_of_digits hdigits hne rest)
    rw [hchars, scanExponent_letter, hsign]
    simp [takeWhile_digits hdigits hrest.digitless, dropWhile_digits hdigits hrest.digitless, hne]

/-- What follows the digits of a fraction begins with neither a digit nor a point. -/
theorem exponent_opens {e : Option Exponent} {rest : List Char} (hrest : Ends rest) {c : Char}
    (h : (e.elim [] Exponent.chars ++ rest).head? = some c) : c.isDigit = false ∧ c ≠ '.' := by
  cases e with
  | none =>
    obtain ⟨hdigit, hpoint, -⟩ := hrest c h
    exact ⟨hdigit, hpoint⟩
  | some x =>
    have hc : Exponent.letter x.capital = c := by simpa [Exponent.chars, Exponent.letter] using h
    subst hc
    cases x.capital <;> decide

/-! ## Fractions -/

/-- What is required of a fraction behind some digits, if there is one. -/
def FractionWellFormed (whole : List Char) (fraction : Option (List Char)) : Prop :=
  ∀ digits ∈ fraction, AllDigits digits ∧ (whole = [] → digits ≠ [])

theorem scanFraction_point (whole behind : List Char) :
    scanFraction whole ('.' :: behind) =
      if whole.isEmpty && (behind.takeWhile Char.isDigit).isEmpty then (none, '.' :: behind)
      else (some (behind.takeWhile Char.isDigit), behind.dropWhile Char.isDigit) := rfl

theorem scanFraction_of_ne {cs : List Char} (h : cs.head? ≠ some '.') (whole : List Char) :
    scanFraction whole cs = (none, cs) := by
  cases cs with
  | nil => rfl
  | cons c cs =>
    have hc : c ≠ '.' := by simpa using h
    simp [scanFraction, hc]

theorem scanFraction_sound {whole cs rest : List Char} {fraction : Option (List Char)}
    (h : scanFraction whole cs = (fraction, rest)) :
    FractionWellFormed whole fraction ∧ fraction.elim [] ('.' :: ·) ++ rest = cs := by
  have hnone : FractionWellFormed whole none := nofun
  unfold scanFraction at h
  split at h
  · next behind =>
    dsimp only at h
    split at h
    · cases h
      exact ⟨hnone, rfl⟩
    · next hne =>
      cases h
      refine ⟨?_, by simp⟩
      intro digits hdigits
      cases hdigits
      exact ⟨allDigits_takeWhile _, by simpa using hne⟩
  · cases h
    exact ⟨hnone, rfl⟩

/-- Digits behind a point are read as a fraction, with those that follow them. -/
theorem scanFraction_digits {whole digits : List Char} (hdigits : AllDigits digits)
    (hne : whole = [] → digits ≠ []) (behind : List Char) :
    scanFraction whole ('.' :: (digits ++ behind)) =
      (some ((digits ++ behind).takeWhile Char.isDigit), behind.dropWhile Char.isDigit) := by
  have hfound : ¬ (whole.isEmpty && ((digits ++ behind).takeWhile Char.isDigit).isEmpty) = true := by
    rw [List.takeWhile_append_of_pos hdigits]
    simpa using fun hnil hnone => absurd hnone (hne hnil)
  rw [scanFraction_point, if_neg hfound, List.dropWhile_append_of_pos hdigits]

theorem scanFraction_written {whole rest : List Char} {fraction : Option (List Char)}
    (h : FractionWellFormed whole fraction) (hrest : Digitless rest)
    (hpoint : rest.head? ≠ some '.') :
    scanFraction whole (fraction.elim [] ('.' :: ·) ++ rest) = (fraction, rest) := by
  cases fraction with
  | none => exact scanFraction_of_ne hpoint whole
  | some digits =>
    obtain ⟨hdigits, hne⟩ := h digits rfl
    have hread := scanFraction_digits hdigits hne rest
    rwa [takeWhile_digits hdigits hrest, ← List.dropWhile_append_of_pos hdigits,
      dropWhile_digits hdigits hrest] at hread

/-! ## Numerals -/

variable {sign : Option Sign} {whole : List Char} {fraction : Option (List Char)}
  {exponent : Option Exponent}

theorem wellFormed_decimal : WellFormed ⟨sign, .decimal whole fraction exponent⟩ ↔
    AllDigits whole ∧ FractionWellFormed whole fraction ∧ (whole = [] → fraction ≠ none) ∧
      ExponentWellFormed exponent := by
  cases fraction with
  | none => simp [WellFormed, FractionWellFormed, ExponentWellFormed, AllDigits]
  | some digits => simp [WellFormed, FractionWellFormed, ExponentWellFormed, and_assoc]

theorem scan_of_infinity {cs rest : List Char}
    (hsign : scanSign cs = (sign, "Infinity".toList ++ rest)) :
    scan cs = some (⟨sign, .infinity⟩, rest) := by
  unfold scan
  rw [hsign]
  rfl

theorem scan_of_decimal {cs body rest : List Char} (hsign : scanSign cs = (sign, body))
    (hinfinity : ¬ "Infinity".toList.isPrefixOf body)
    (hfraction : scanFraction (body.takeWhile Char.isDigit) (body.dropWhile Char.isDigit) =
      (fraction, rest)) :
    scan cs =
      if (body.takeWhile Char.isDigit).isEmpty && fraction.isNone then none
      else some (⟨sign, .decimal (body.takeWhile Char.isDigit) fraction (scanExponent rest).1⟩,
        (scanExponent rest).2) := by
  unfold scan
  simp only [hsign, hfraction]
  rw [if_neg hinfinity]

/-- **What is read is a numeral**, and its text with what is left over is the text that was read. -/
theorem scan_sound {cs rest : List Char} {n : Numeral} (h : scan cs = some (n, rest)) :
    n.WellFormed ∧ n.chars ++ rest = cs := by
  have hsign := scanSign_sound cs
  unfold scan at h
  rcases hscan : scanSign cs with ⟨sign, body⟩
  simp only [hscan] at h hsign
  split at h
  · next hinfinity =>
    cases h
    obtain ⟨behind, rfl⟩ := List.isPrefixOf_iff_prefix.mp hinfinity
    refine ⟨trivial, ?_⟩
    rw [← hsign, List.drop_left]
    simp [chars]
  · rcases hfraction : scanFraction (body.takeWhile Char.isDigit) (body.dropWhile Char.isDigit)
      with ⟨fraction, behind⟩
    simp only [hfraction] at h
    split at h
    · cases h
    · next hsome =>
      rcases hexponent : scanExponent behind with ⟨exponent, rest'⟩
      simp only [hexponent] at h
      cases h
      obtain ⟨hfractionWell, hfractionText⟩ := scanFraction_sound hfraction
      obtain ⟨hexponentWell, hexponentText⟩ := scanExponent_sound hexponent
      refine ⟨wellFormed_decimal.mpr
        ⟨allDigits_takeWhile _, hfractionWell, ?_, hexponentWell⟩, ?_⟩
      · simpa using hsome
      · calc chars ⟨sign, .decimal (body.takeWhile Char.isDigit) fraction exponent⟩ ++ rest
            = writtenSign sign ++ (body.takeWhile Char.isDigit ++
                (fraction.elim [] ('.' :: ·) ++ (exponent.elim [] Exponent.chars ++ rest))) := by
              simp [chars]
          _ = writtenSign sign ++ body := by
              rw [hexponentText, hfractionText, List.takeWhile_append_dropWhile]
          _ = cs := hsign

/-- The text behind the sign of a decimal begins with a digit or with the point, so that it is not
mistaken for a sign or for `Infinity`. -/
theorem decimal_opens (hwhole : AllDigits whole) (hsome : whole = [] → fraction ≠ none)
    (behind : List Char) : ∃ c cs, whole ++ (fraction.elim [] ('.' :: ·) ++ behind) = c :: cs ∧
      c ≠ '+' ∧ c ≠ '-' ∧ c ≠ 'I' := by
  cases whole with
  | cons c whole => exact ⟨c, _, rfl, ne_of_isDigit (hwhole c List.mem_cons_self)⟩
  | nil =>
    cases fraction with
    | none => exact absurd rfl (hsome rfl)
    | some digits => exact ⟨'.', _, rfl, by decide⟩

/-- What follows the digits before the point begins with no digit. -/
theorem digitless_behind (fraction : Option (List Char)) (exponent : Option Exponent)
    {rest : List Char} (hrest : Ends rest) :
    Digitless (fraction.elim [] ('.' :: ·) ++ (exponent.elim [] Exponent.chars ++ rest)) := by
  intro c hc
  cases fraction with
  | none => exact (exponent_opens hrest hc).1
  | some digits =>
    cases hc
    rfl

/-- Behind a sign, `Infinity` is read whatever follows. -/
theorem scan_infinity (sign : Option Sign) (rest : List Char) :
    scan (writtenSign sign ++ ("Infinity".toList ++ rest)) = some (⟨sign, .infinity⟩, rest) := by
  have hunsigned : Unsigned ("Infinity".toList ++ rest) := by
    intro c hc
    obtain rfl : 'I' = c := by simpa using hc
    decide
  exact scan_of_infinity (scanSign_written sign hunsigned)

/-- Behind a sign, what begins like a decimal is read digit by digit. -/
theorem scan_decimal (sign : Option Sign) {body behind rest : List Char}
    {found : Option (List Char)} (hwhole : AllDigits whole) (hsome : whole = [] → fraction ≠ none)
    (hbody : body = whole ++ (fraction.elim [] ('.' :: ·) ++ behind))
    (hfraction : scanFraction (body.takeWhile Char.isDigit) (body.dropWhile Char.isDigit) =
      (found, rest)) :
    scan (writtenSign sign ++ body) =
      if (body.takeWhile Char.isDigit).isEmpty && found.isNone then none
      else some (⟨sign, .decimal (body.takeWhile Char.isDigit) found (scanExponent rest).1⟩,
        (scanExponent rest).2) := by
  obtain ⟨c, cs, hopens, hplus, hminus, hI⟩ := decimal_opens hwhole hsome behind
  rw [← hbody] at hopens
  have hsign : scanSign (writtenSign sign ++ body) = (sign, body) := by
    refine scanSign_written sign fun d hd => ?_
    obtain rfl : c = d := by simpa [hopens] using hd
    exact ⟨hplus, hminus⟩
  refine scan_of_decimal hsign ?_ hfraction
  simp [hopens, List.isPrefixOf, hI.symm]

/-- **The text of a numeral is read as a whole**, if nothing follows by which it could go on. -/
theorem scan_written {n : Numeral} (h : n.WellFormed) {rest : List Char} (hrest : Ends rest) :
    scan (n.chars ++ rest) = some (n, rest) := by
  obtain ⟨sign, magnitude⟩ := n
  cases magnitude with
  | infinity =>
    rw [← scan_infinity sign rest]
    exact congrArg scan (List.append_assoc ..)
  | decimal whole fraction exponent =>
    obtain ⟨hwhole, hfraction, hsome, hexponent⟩ := wellFormed_decimal.mp h
    let letters := exponent.elim [] Exponent.chars ++ rest
    obtain ⟨body, hbody⟩ : ∃ body, body = whole ++ (fraction.elim [] ('.' :: ·) ++ letters) :=
      ⟨_, rfl⟩
    have hchars : chars ⟨sign, .decimal whole fraction exponent⟩ ++ rest =
        writtenSign sign ++ body := by
      simp [chars, hbody, letters]
    have hbehind := digitless_behind fraction exponent hrest
    have htake : body.takeWhile Char.isDigit = whole := hbody ▸ takeWhile_digits hwhole hbehind
    have hdrop : body.dropWhile Char.isDigit = fraction.elim [] ('.' :: ·) ++ letters :=
      hbody ▸ dropWhile_digits hwhole hbehind
    have hpoint : letters.head? ≠ some '.' := fun hhead => (exponent_opens hrest hhead).2 rfl
    have hscan :
        scanFraction whole (fraction.elim [] ('.' :: ·) ++ letters) = (fraction, letters) :=
      scanFraction_written hfraction (digitless_behind none exponent hrest) hpoint
    have hletters : scanExponent letters = (exponent, rest) := scanExponent_written hexponent hrest
    have hfound : ¬ (whole.isEmpty && fraction.isNone) = true := by simpa using hsome
    rw [← htake, ← hdrop] at hscan
    rw [hchars, scan_decimal sign hwhole hsome hbody hscan, htake, if_neg hfound, hletters]

/-- **The texts that are read as a whole** are those of the numerals. -/
theorem scan_eq_whole {cs : List Char} {n : Numeral} :
    scan cs = some (n, []) ↔ n.WellFormed ∧ n.chars = cs := by
  constructor
  · intro h
    simpa using scan_sound h
  · rintro ⟨hn, rfl⟩
    simpa using scan_written hn ends_nil

end Numeral

/-! ## Integers -/

/-- `SpellsInteger cs n`: the text is a sign, which may be left out, and digits, and what they say
is the integer `n`, which fits 64 bits. -/
def SpellsInteger (cs : List Char) (n : Int) : Prop :=
  ∃ sign digits, AllDigits digits ∧ digits ≠ [] ∧ writtenSign sign ++ digits = cs ∧
    n = signedValue sign (digitsValue digits) ∧ fitsWord n

section

variable {cs rest : List Char} {n : Int}

theorem scanInteger_sound (h : scanInteger cs = some (n, rest)) :
    ∃ text, SpellsInteger text n ∧ text ++ rest = cs := by
  have hsign := scanSign_sound cs
  unfold scanInteger at h
  rcases hscan : scanSign cs with ⟨sign, body⟩
  simp only [hscan] at h hsign
  split at h
  · cases h
  · next hne =>
    split at h
    · next hfits =>
      cases h
      refine ⟨_, ⟨sign, _, allDigits_takeWhile _, by simpa using hne, rfl, rfl, hfits⟩, ?_⟩
      rw [List.append_assoc, List.takeWhile_append_dropWhile, hsign]
    · cases h

theorem scanInteger_written (h : SpellsInteger cs n) : scanInteger cs = some (n, []) := by
  obtain ⟨sign, digits, hdigits, hne, rfl, rfl, hfits⟩ := h
  have hsign : scanSign (writtenSign sign ++ digits) = (sign, digits) := by
    simpa using scanSign_written sign (unsigned_of_digits hdigits hne [])
  unfold scanInteger
  simp [hsign, takeWhile_allDigits hdigits, dropWhile_allDigits hdigits, hne, hfits]

/-- **The texts that are read as a whole integer** are those that spell one. -/
theorem scanInteger_eq_whole : scanInteger cs = some (n, []) ↔ SpellsInteger cs n := by
  constructor
  · intro h
    obtain ⟨text, hspells, rfl⟩ := scanInteger_sound h
    simpa using hspells
  · exact scanInteger_written

end

end DeskCalculator
