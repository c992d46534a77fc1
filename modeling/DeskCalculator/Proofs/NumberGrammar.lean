import Mathlib.Computability.Language
import DeskCalculator.Proofs.Conversion

/-!
# DeskCalculator.Proofs.NumberGrammar — the language of the numbers

The texts that stand for numbers are described here as a language, put together from the languages
of their parts; nothing is said of how they are read.  The reader of numerals is then compared with
it: what it takes from the beginning of a text is in the language, and no longer beginning is.

* `NumberGrammar.mem_number`: the texts of the language are those of the numerals.
* `Numeral.scan_longest`, `Numeral.scan_eq_none`: the reader takes the longest prefix.
-/

namespace DeskCalculator

open Computability
open Binary64 (Sign)
open Numeral (AllDigits Exponent ExponentWellFormed FractionWellFormed)

/-! ## The grammar -/

namespace NumberGrammar

/-- The text of one character. -/
def letter (c : Char) : Language Char := {[c]}

def digit : Language Char := {p | ∃ c, c.isDigit ∧ p = [c]}

/-- One digit or more. -/
def digits : Language Char := digit * digit∗

/-- A sign, which may be left out. -/
def sign : Language Char := 1 + letter '+' + letter '-'

/-- An exponent, which may be left out. -/
def exponent : Language Char := 1 + (letter 'e' + letter 'E') * sign * digits

/-- Digits with a point and a fraction, or with one of them, or with neither. -/
def mantissa : Language Char := digits * (1 + letter '.' * digit∗) + letter '.' * digits

/-- The texts that stand for a number. -/
def number : Language Char := sign * ({"Infinity".toList} + mantissa * exponent)

/-- The decimal numbers, in the form in which conversion to floating point documents them. -/
def decimal : Language Char :=
  sign * ((digits + digits * letter '.' * digit∗ + digit∗ * letter '.' * digits) * exponent)

/-! ## The parts -/

section

variable {p : List Char} {l : Language Char}

theorem mem_letter {c : Char} : p ∈ letter c ↔ p = [c] := Iff.rfl

theorem mem_letter_mul {c : Char} : p ∈ letter c * l ↔ ∃ q ∈ l, c :: q = p := by
  rw [Language.mem_mul]
  constructor
  · rintro ⟨_, rfl, q, hq, rfl⟩
    exact ⟨q, hq, rfl⟩
  · rintro ⟨q, hq, rfl⟩
    exact ⟨[c], rfl, q, hq, rfl⟩

theorem mem_kstar_digit : p ∈ digit∗ ↔ AllDigits p := by
  rw [Language.mem_kstar]
  constructor
  · rintro ⟨parts, rfl, hparts⟩ c hc
    obtain ⟨part, hpart, hc⟩ := List.mem_flatten.mp hc
    obtain ⟨d, hd, rfl⟩ := hparts part hpart
    rwa [List.mem_singleton.mp hc]
  · intro h
    refine ⟨p.map ([·]), by rw [← List.flatMap_def, List.flatMap_singleton'], ?_⟩
    intro part hpart
    obtain ⟨c, hc, rfl⟩ := List.mem_map.mp hpart
    exact ⟨c, h c hc, rfl⟩

theorem mem_digits : p ∈ digits ↔ AllDigits p ∧ p ≠ [] := by
  simp only [digits, Language.mem_mul, mem_kstar_digit]
  constructor
  · rintro ⟨_, ⟨c, hc, rfl⟩, cs, hcs, rfl⟩
    exact ⟨List.forall_mem_cons.mpr ⟨hc, hcs⟩, by simp⟩
  · rintro ⟨hall, hne⟩
    obtain ⟨c, cs, rfl⟩ := List.exists_cons_of_ne_nil hne
    obtain ⟨hc, hcs⟩ := List.forall_mem_cons.mp hall
    exact ⟨[c], ⟨c, hc, rfl⟩, cs, hcs, rfl⟩

theorem mem_sign : p ∈ sign ↔ ∃ s, writtenSign s = p := by
  simp only [sign, Language.mem_add, Language.mem_one, mem_letter]
  constructor
  · rintro ((rfl | rfl) | rfl)
    · exact ⟨none, rfl⟩
    · exact ⟨some .positive, rfl⟩
    · exact ⟨some .negative, rfl⟩
  · rintro ⟨_ | _ | _, rfl⟩
    · exact .inl (.inl rfl)
    · exact .inr rfl
    · exact .inl (.inr rfl)

theorem mem_exponent :
    p ∈ exponent ↔ ∃ e, ExponentWellFormed e ∧ e.elim [] Exponent.chars = p := by
  simp only [exponent, Language.mem_add, Language.mem_one, Language.mem_mul, mem_letter, mem_sign,
    mem_digits]
  constructor
  · rintro (rfl | ⟨_, ⟨_, hletter, _, ⟨s, rfl⟩, rfl⟩, ds, hds, rfl⟩)
    · exact ⟨none, nofun, rfl⟩
    · rcases hletter with rfl | rfl
      · exact ⟨some ⟨false, s, ds⟩, fun x hx => by cases hx; exact hds, rfl⟩
      · exact ⟨some ⟨true, s, ds⟩, fun x hx => by cases hx; exact hds, rfl⟩
  · rintro ⟨_ | ⟨capital, s, ds⟩, hwell, rfl⟩
    · exact .inl rfl
    · refine .inr ⟨_, ⟨[Exponent.letter capital], ?_, _, ⟨s, rfl⟩, rfl⟩, ds, hwell _ rfl, rfl⟩
      cases capital
      · exact .inl rfl
      · exact .inr rfl

theorem mem_mantissa : p ∈ mantissa ↔ ∃ whole fraction, AllDigits whole ∧
    FractionWellFormed whole fraction ∧ (whole = [] → fraction ≠ none) ∧
      whole ++ fraction.elim [] ('.' :: ·) = p := by
  simp only [mantissa, mul_add, mul_one, Language.mem_add, ↓mem_letter_mul, Language.mem_mul,
    mem_digits, mem_kstar_digit]
  constructor
  · rintro ((⟨hall, hne⟩ | ⟨whole, ⟨hall, hne⟩, _, ⟨ds, hds, rfl⟩, rfl⟩) | ⟨ds, ⟨hds, hne⟩, rfl⟩)
    · exact ⟨p, none, hall, nofun, fun h => absurd h hne, List.append_nil p⟩
    · refine ⟨whole, some ds, hall, ?_, fun h => absurd h hne, rfl⟩
      intro x hx
      cases hx
      exact ⟨hds, fun h => absurd h hne⟩
    · refine ⟨[], some ds, nofun, ?_, fun _ => Option.some_ne_none ds, rfl⟩
      intro x hx
      cases hx
      exact ⟨hds, fun _ => hne⟩
  · rintro ⟨whole, fraction, hall, hfraction, hsome, rfl⟩
    cases fraction with
    | none =>
      refine .inl (.inl ?_)
      simpa using ⟨hall, fun h => hsome h rfl⟩
    | some ds =>
      obtain ⟨hds, hne⟩ := hfraction ds rfl
      by_cases hwhole : whole = []
      · subst hwhole
        exact .inr ⟨ds, ⟨hds, hne rfl⟩, rfl⟩
      · exact .inl (.inr ⟨whole, ⟨hall, hwhole⟩, _, ⟨ds, hds, rfl⟩, rfl⟩)

/-! ## Numbers -/

theorem kstar_digit_eq : digit∗ = 1 + digits := (Language.one_add_self_mul_kstar_eq_kstar digit).symm

/-- Digits may stand before a point with a fraction that is not empty; this is nothing new. -/
theorem mantissa_eq :
    mantissa = digits + digits * letter '.' * digit∗ + digit∗ * letter '.' * digits := by
  have hle : digits * letter '.' * digits ≤ digits * letter '.' * digit∗ := by
    rw [kstar_digit_eq]
    exact mul_le_mul_right (le_sup_right) _
  calc mantissa = digits + digits * letter '.' * digit∗ + letter '.' * digits := by
        rw [mantissa, mul_add, mul_one, mul_assoc]
    _ = digits + (digits * letter '.' * digit∗ + digits * letter '.' * digits) +
          letter '.' * digits := by
        rw [add_eq_left_iff_le.mpr hle]
    _ = digits + digits * letter '.' * digit∗ + (1 + digits) * letter '.' * digits := by
        rw [add_mul, add_mul, one_mul]
        abel
    _ = _ := by rw [← kstar_digit_eq]

/-- A number is infinite, or it is a decimal number. -/
theorem number_eq : number = sign * {"Infinity".toList} + decimal := by
  rw [number, mul_add, mantissa_eq]
  rfl

theorem mem_decimal : p ∈ decimal ↔ ∃ (n : Numeral) (whole : List Char)
    (fraction : Option (List Char)) (e : Option Exponent), n.WellFormed ∧
      n.magnitude = .decimal whole fraction e ∧ n.chars = p := by
  simp only [decimal, ← mantissa_eq, Language.mem_mul, mem_sign, mem_exponent, mem_mantissa]
  constructor
  · rintro ⟨_, ⟨s, rfl⟩, _, ⟨_, ⟨whole, fraction, hwhole, hfraction, hsome, rfl⟩, _, ⟨e, he, rfl⟩,
      rfl⟩, rfl⟩
    exact ⟨⟨s, .decimal whole fraction e⟩, whole, fraction, e,
      Numeral.wellFormed_decimal.mpr ⟨hwhole, hfraction, hsome, he⟩, rfl, rfl⟩
  · rintro ⟨⟨s, _⟩, whole, fraction, e, hwell, rfl, rfl⟩
    obtain ⟨hwhole, hfraction, hsome, he⟩ := Numeral.wellFormed_decimal.mp hwell
    exact ⟨_, ⟨s, rfl⟩, _, ⟨_, ⟨whole, fraction, hwhole, hfraction, hsome, rfl⟩, _, ⟨e, he, rfl⟩,
      rfl⟩, rfl⟩

/-- **The texts of the language are those of the numerals.** -/
theorem mem_number : p ∈ number ↔ ∃ n : Numeral, n.WellFormed ∧ n.chars = p := by
  simp only [number_eq, Language.mem_add, Language.mem_mul, mem_sign, mem_decimal]
  constructor
  · rintro (⟨_, ⟨s, rfl⟩, _, rfl, rfl⟩ | ⟨n, -, -, -, hwell, -, hchars⟩)
    · exact ⟨⟨s, .infinity⟩, trivial, rfl⟩
    · exact ⟨n, hwell, hchars⟩
  · rintro ⟨⟨s, magnitude⟩, hwell, rfl⟩
    cases magnitude with
    | infinity => exact .inl ⟨_, ⟨s, rfl⟩, _, rfl, rfl⟩
    | decimal whole fraction e => exact .inr ⟨_, whole, fraction, e, hwell, rfl, rfl⟩

end

end NumberGrammar

/-! ## The longest prefix -/

/-- The longest prefix of a text that is in a language. -/
structure LongestPrefix (l : Language Char) (text p : List Char) : Prop where
  isPrefix : p <+: text
  mem : p ∈ l
  longest : ∀ q, q <+: text → q ∈ l → q.length ≤ p.length

namespace Numeral

/-! What the reader leaves over is no longer than what stands behind any prefix that is a number.
The parts are met one after the other: an exponent, what may stand between the digits and it, and
the whole. -/

theorem scanExponent_length_le (cs : List Char) : (scanExponent cs).2.length ≤ cs.length := by
  obtain ⟨-, htext⟩ := scanExponent_sound (Prod.eta (scanExponent cs)).symm
  calc (scanExponent cs).2.length ≤ _ := (List.suffix_append _ _).length_le
    _ = cs.length := congrArg List.length htext

theorem scanFraction_length_le (whole cs : List Char) :
    (scanFraction whole cs).2.length ≤ cs.length := by
  obtain ⟨-, htext⟩ := scanFraction_sound (Prod.eta (scanFraction whole cs)).symm
  calc (scanFraction whole cs).2.length ≤ _ := (List.suffix_append _ _).length_le
    _ = cs.length := congrArg List.length htext

/-- An exponent is not passed over with the digits before it. -/
theorem dropWhile_exponent (x : Exponent) (rest : List Char) :
    (x.chars ++ rest).dropWhile Char.isDigit = x.chars ++ rest := by
  obtain ⟨capital, sign, digits⟩ := x
  cases capital <;> rfl

theorem scanFraction_exponent (whole : List Char) (x : Exponent) (rest : List Char) :
    scanFraction whole (x.chars ++ rest) = (none, x.chars ++ rest) := by
  obtain ⟨capital, sign, digits⟩ := x
  cases capital <;> rfl

section

variable {sign : Option Sign} {whole : List Char} {fraction : Option (List Char)}
  {exponent : Option Exponent} (hexponent : ExponentWellFormed exponent) (rest : List Char)
include hexponent

/-- An exponent is read to its end, or further. -/
theorem scanExponent_reaches :
    (scanExponent ((exponent.elim [] Exponent.chars ++ rest).dropWhile Char.isDigit)).2.length ≤
      rest.length := by
  cases exponent with
  | none => exact (scanExponent_length_le _).trans (List.length_dropWhile_le _ _)
  | some x =>
    obtain ⟨hdigits, hne⟩ := hexponent x rfl
    have hchars : x.chars ++ rest =
        Exponent.letter x.capital :: (writtenSign x.sign ++ (x.digits ++ rest)) := by
      simp [Exponent.chars, Exponent.letter]
    have hsign := scanSign_written x.sign (unsigned_of_digits hdigits hne rest)
    have htake : (x.digits ++ rest).takeWhile Char.isDigit ≠ [] := by
      rw [List.takeWhile_append_of_pos hdigits]
      exact List.append_ne_nil_of_left_ne_nil hne _
    rw [Option.elim_some, dropWhile_exponent, hchars, scanExponent_letter, hsign]
    dsimp only
    rw [if_neg (by simpa using htake), List.dropWhile_append_of_pos hdigits]
    exact List.length_dropWhile_le _ _

/-- The same where a fraction is looked for before the exponent. -/
theorem scanFraction_reaches (whole : List Char) :
    (scanExponent (scanFraction whole
      ((exponent.elim [] Exponent.chars ++ rest).dropWhile Char.isDigit)).2).2.length ≤
      rest.length := by
  have hreaches := scanExponent_reaches hexponent rest
  cases exponent with
  | none =>
    exact (scanExponent_length_le _).trans
      ((scanFraction_length_le _ _).trans (List.length_dropWhile_le _ _))
  | some x =>
    rw [Option.elim_some, dropWhile_exponent] at hreaches ⊢
    rwa [scanFraction_exponent]

end

/-- **A prefix that is a number is read to its end, or further.** -/
theorem scan_reaches {n : Numeral} (h : n.WellFormed) (rest : List Char) :
    ∃ n' rest', scan (n.chars ++ rest) = some (n', rest') ∧ rest'.length ≤ rest.length := by
  obtain ⟨sign, magnitude⟩ := n
  cases magnitude with
  | infinity =>
    refine ⟨⟨sign, .infinity⟩, rest, ?_, le_rfl⟩
    rw [← scan_infinity sign rest]
    exact congrArg scan (List.append_assoc ..)
  | decimal whole fraction exponent =>
    obtain ⟨hwhole, hfraction, hsome, hexponent⟩ := wellFormed_decimal.mp h
    obtain ⟨behind, hbehind⟩ : ∃ behind, behind = exponent.elim [] Exponent.chars ++ rest :=
      ⟨_, rfl⟩
    obtain ⟨body, hbody⟩ : ∃ body, body = whole ++ (fraction.elim [] ('.' :: ·) ++ behind) :=
      ⟨_, rfl⟩
    have hchars : chars ⟨sign, .decimal whole fraction exponent⟩ ++ rest =
        writtenSign sign ++ body := by
      simp [chars, hbody, hbehind]
    rw [hchars]
    cases fraction with
    | none =>
      -- the digits may go on, and there may be a fraction behind them
      have hne : whole ≠ [] := fun hnil => hsome hnil rfl
      have hdrop : body.dropWhile Char.isDigit = behind.dropWhile Char.isDigit := by
        rw [hbody]
        exact List.dropWhile_append_of_pos hwhole
      have htake : (body.takeWhile Char.isDigit).isEmpty = false := by
        rw [hbody, List.takeWhile_append_of_pos hwhole]
        simp [hne]
      rw [scan_decimal sign hwhole hsome hbody (Prod.eta _).symm, htake, hdrop]
      exact ⟨_, _, rfl, hbehind ▸ scanFraction_reaches hexponent rest _⟩
    | some digits =>
      obtain ⟨hdigits, hne⟩ := hfraction digits rfl
      have hpoint : Digitless ('.' :: (digits ++ behind)) := by
        intro c hc
        cases hc
        rfl
      have htake : body.takeWhile Char.isDigit = whole := hbody ▸ takeWhile_digits hwhole hpoint
      have hdrop : body.dropWhile Char.isDigit = '.' :: (digits ++ behind) :=
        hbody ▸ dropWhile_digits hwhole hpoint
      have hscan := scanFraction_digits hdigits hne behind
      rw [← htake, ← hdrop] at hscan
      rw [scan_decimal sign hwhole hsome hbody hscan, Option.isNone_some, Bool.and_false]
      exact ⟨_, _, rfl, hbehind ▸ scanExponent_reaches hexponent rest⟩

/-- What is read is the longest prefix that is a number. -/
theorem scan_longest {cs rest : List Char} {n : Numeral} (h : scan cs = some (n, rest)) :
    LongestPrefix NumberGrammar.number cs n.chars := by
  obtain ⟨hn, hcs⟩ := scan_sound h
  refine ⟨⟨rest, hcs⟩, NumberGrammar.mem_number.mpr ⟨n, hn, rfl⟩, ?_⟩
  rintro q ⟨behind, hq⟩ hmem
  obtain ⟨n', hn', rfl⟩ := NumberGrammar.mem_number.mp hmem
  obtain ⟨m, rest', hscan, hle⟩ := scan_reaches hn' behind
  rw [hq, h] at hscan
  cases hscan
  have hlength := congrArg List.length (hcs.trans hq.symm)
  rw [List.length_append, List.length_append] at hlength
  omega

/-- Nothing is read when no prefix is a number, and only then. -/
theorem scan_eq_none {cs : List Char} :
    scan cs = none ↔ ∀ p, p <+: cs → p ∉ NumberGrammar.number := by
  constructor
  · rintro hscan p ⟨rest, hp⟩ hmem
    obtain ⟨n, hn, rfl⟩ := NumberGrammar.mem_number.mp hmem
    obtain ⟨m, rest', hsome, -⟩ := scan_reaches hn rest
    rw [hp, hscan] at hsome
    cases hsome
  · intro hnone
    cases hscan : scan cs with
    | none => rfl
    | some read =>
      have hlongest := scan_longest hscan
      exact absurd hlongest.mem (hnone _ hlongest.isPrefix)

end Numeral

end DeskCalculator
