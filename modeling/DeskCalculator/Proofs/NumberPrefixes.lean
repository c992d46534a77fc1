import DeskCalculator.Proofs.ByteScan

/-!
# DeskCalculator.Proofs.NumberPrefixes — what a word is taken for where a number is wanted

Lenient reading takes the longest prefix that is a number, and strict reading takes the whole word
or nothing.  The value is the number nearest to what is written.  The same comes of reading the
bytes of the word and handing what was found to any conversion that reads the decimal numbers.

* `number_prefixes`: the number of a word, in both ways of reading.
-/

namespace DeskCalculator

open Binary64
open NumberGrammar (number decimal)

/-! ## The number that a text spells -/

/-- `SpellsNumber p x`: the text is a numeral as a whole, and what it says is `x`. -/
def SpellsNumber (p : List Char) (x : Float) : Prop :=
  ∃ n : Numeral, n.WellFormed ∧ n.chars = p ∧ n.Says x

theorem spellsNumber_chars {n : Numeral} (h : n.WellFormed) {x : Float} :
    SpellsNumber n.chars x ↔ x = n.value := by
  constructor
  · rintro ⟨n', hn', hchars, hsays⟩
    have hscan := Numeral.scan_eq_whole.mpr ⟨hn', hchars⟩
    rw [Numeral.scan_eq_whole.mpr ⟨h, rfl⟩] at hscan
    cases hscan
    exact Numeral.says_iff.mp hsays
  · rintro rfl
    exact ⟨n, h, rfl, Numeral.says_iff.mpr rfl⟩

/-- What is read of a text when it begins with a number, or when it does not. -/
theorem leadingNumber_of_some {token : String} {n : Numeral} {rest : List Char}
    (h : Numeral.scan (Text.trimStart token.toList) = some (n, rest)) :
    leadingNumber token = n.value := by
  simp only [leadingNumber, h]

theorem leadingNumber_of_none {token : String}
    (h : Numeral.scan (Text.trimStart token.toList) = none) :
    leadingNumber token = notANumber := by
  simp only [leadingNumber, h]

/-! ## White space around a number -/

namespace Text

/-- What is removed at the end of a text is white space. -/
theorem exists_blanks (cs : List Char) :
    ∃ blanks, trimStart cs = trim cs ++ blanks ∧ ∀ c ∈ blanks, isBlank c := by
  refine ⟨((trimStart cs).reverse.takeWhile isBlank).reverse, ?_, ?_⟩
  · rw [trim, ← List.reverse_append]
    show _ = ((trimStart cs).reverse.takeWhile isBlank ++
      (trimStart cs).reverse.dropWhile isBlank).reverse
    rw [List.takeWhile_append_dropWhile, List.reverse_reverse]
  · intro c hc
    exact List.all_eq_true.mp List.all_takeWhile c (List.mem_reverse.mp hc)

end Text

theorem ends_of_blanks {blanks : List Char} (h : ∀ c ∈ blanks, Text.isBlank c) :
    Numeral.Ends blanks := by
  intro c hc
  have hblank := h c (List.mem_of_head? hc)
  have hletter : ¬ Numeral.Letter c := fun hletter => by
    rw [Numeral.not_blank_of_letter hletter] at hblank
    cases hblank
  refine ⟨?_, ?_, ?_, ?_⟩
  · rw [Bool.eq_false_iff]
    exact fun hdigit => hletter (.inl hdigit)
  all_goals
    rintro rfl
    exact hletter (.inr (by decide))

/-- A word that is a number as a whole begins with it. -/
theorem scan_trimStart {cs : List Char} {n : Numeral} (hn : n.WellFormed)
    (hchars : n.chars = Text.trim cs) :
    ∃ blanks, Numeral.scan (Text.trimStart cs) = some (n, blanks) := by
  obtain ⟨blanks, htext, hblanks⟩ := Text.exists_blanks cs
  refine ⟨blanks, ?_⟩
  rw [htext, ← hchars]
  exact Numeral.scan_written hn (ends_of_blanks hblanks)

theorem strict_number_of_whole {token : String} {n : Numeral} (hn : n.WellFormed)
    (hchars : n.chars = Text.trim token.toList) :
    Strictness.strict.number token = .ok n.value := by
  have hscan := Numeral.scan_eq_whole.mpr ⟨hn, hchars⟩
  simp only [Strictness.number, wholeNumber?, hscan]
  rfl

theorem strict_number_of_not_mem {token : String} (h : Text.trim token.toList ∉ number) :
    Strictness.strict.number token = .error (.notNumeric token) := by
  have hwhole : wholeNumber? token = none := by
    unfold wholeNumber?
    split
    · next n hscan =>
      exact absurd (NumberGrammar.mem_number.mpr ⟨n, Numeral.scan_eq_whole.mp hscan⟩) h
    · rfl
  rw [Strictness.number, hwhole]
  rfl

/-! ## Conversion of what was found -/

/-- A conversion that reads the decimal numbers, whatever it makes of other texts. -/
def Converts (convert : List Char → Option Float) : Prop :=
  ∀ p ∈ decimal, ∃ x, convert p = some x ∧ SpellsNumber p x

namespace Bytes

variable (convert : List Char → Option Float)

/-- The value of a text that was found, if it has one. -/
def prefixValue? (p : List Char) : Option Float :=
  if "Infinity".toList.isSuffixOf p then
    some (if "-".toList.isPrefixOf p then infinity .negative else infinity .positive)
  else convert p

/-- The number that a text starts with.  Nothing is answered if the text was to be taken apart inside
of a character. -/
def leadingNumber? (token : String) : Option Float :=
  (numberPrefix? (Text.trimStart token.toList)).map fun
    | some p => (prefixValue? convert p).getD notANumber
    | none => notANumber

/-- The number that a text is as a whole. -/
def strictNumber? (token : String) : Option (Except Fault Float) :=
  let trimmed := Text.trim token.toList
  (numberPrefix? trimmed).map fun
    | some p =>
      if (ofText p).length = (ofText trimmed).length then
        .ok ((prefixValue? convert p).getD notANumber)
      else .error (.notNumeric token)
    | none => .error (.notNumeric token)

variable {convert}

theorem prefixValue?_eq (h : Converts convert) {n : Numeral} (hn : n.WellFormed) :
    prefixValue? convert n.chars = some n.value := by
  obtain ⟨sign, magnitude⟩ := n
  cases magnitude with
  | infinity =>
    rcases sign with _ | _ | _
    all_goals rfl
  | decimal whole fraction exponent =>
    have hnot : ¬ "Infinity".toList.isSuffixOf
        (Numeral.chars ⟨sign, .decimal whole fraction exponent⟩) = true := by
      intro hsuffix
      have hmem := (List.isSuffixOf_iff_suffix.mp hsuffix).subset
        (show 'I' ∈ "Infinity".toList by decide)
      have hplain : ¬ Numeral.Plain 'I' := by unfold Numeral.Plain; decide
      exact hplain (Numeral.plain_of_mem_chars hn hmem)
    rw [prefixValue?, if_neg hnot]
    obtain ⟨x, hx, hspells⟩ :=
      h _ (NumberGrammar.mem_decimal.mpr ⟨_, whole, fraction, exponent, hn, rfl, rfl⟩)
    rw [hx, (spellsNumber_chars hn).mp hspells]

/-- What was found is the whole text if it has as many bytes. -/
theorem length_ofText_eq_iff {p rest : List Char} :
    (ofText p).length = (ofText (p ++ rest)).length ↔ rest = [] := by
  rw [ofText_append, List.length_append]
  constructor
  · intro h
    cases rest with
    | nil => rfl
    | cons c rest =>
      have hpos := c.utf8Size_pos
      rw [ofText_cons, List.length_append, String.length_utf8EncodeChar] at h
      omega
  · rintro rfl
    rfl

theorem leadingNumber?_eq (h : Converts convert) (token : String) :
    leadingNumber? convert token = some (leadingNumber token) := by
  rw [leadingNumber?, numberPrefix?_eq]
  cases hscan : Numeral.scan (Text.trimStart token.toList) with
  | none => rw [leadingNumber_of_none hscan]; rfl
  | some read =>
    obtain ⟨n, rest⟩ := read
    rw [leadingNumber_of_some hscan]
    simp [prefixValue?_eq h (Numeral.scan_sound hscan).1]

theorem strictNumber?_eq (h : Converts convert) (token : String) :
    strictNumber? convert token = some (Strictness.strict.number token) := by
  simp only [strictNumber?, numberPrefix?_eq]
  cases hscan : Numeral.scan (Text.trim token.toList) with
  | none =>
    rw [strict_number_of_not_mem (Numeral.scan_eq_none.mp hscan _ List.prefix_rfl)]
    rfl
  | some read =>
    obtain ⟨n, rest⟩ := read
    obtain ⟨hn, hchars⟩ := Numeral.scan_sound hscan
    simp only [Option.map_some, prefixValue?_eq h hn, Option.getD_some]
    cases rest with
    | nil =>
      rw [List.append_nil] at hchars
      rw [if_pos (congrArg (fun cs => (ofText cs).length) hchars), strict_number_of_whole hn hchars]
    | cons c rest =>
      have hnot : Text.trim token.toList ∉ number := by
        intro hmem
        obtain ⟨n', hwhole⟩ := NumberGrammar.mem_number.mp hmem
        rw [Numeral.scan_eq_whole.mpr hwhole] at hscan
        cases hscan
      rw [strict_number_of_not_mem hnot, if_neg]
      rw [← hchars, length_ofText_eq_iff]
      exact List.cons_ne_nil c rest

end Bytes

/-- **What a word is taken for where a number is wanted.**  Lenient reading takes the longest prefix
that is a number, behind white space, and NaN just if there is none.  Strict reading takes the word
if all of it is a number, white space around it aside, and refuses it otherwise; the number is the
same in both.  The readers of bytes, with any conversion that reads the decimal numbers, come to the
same, so that they never take a text apart inside of a character, and whatever is found has a value,
so that they never fall back on NaN. -/
theorem number_prefixes (token : String) :
    let text := Text.trimStart token.toList
    let whole := Text.trim token.toList
    ((∃ p, p <+: text ∧ p ∈ number) →
      ∃ p, LongestPrefix number text p ∧ SpellsNumber p (leadingNumber token)) ∧
    (leadingNumber token = notANumber ↔ ∀ p, p <+: text → p ∉ number) ∧
    (whole ∈ number → Strictness.strict.number token = .ok (leadingNumber token) ∧
      leadingNumber token ≠ notANumber ∧ SpellsNumber whole (leadingNumber token)) ∧
    (whole ∉ number → Strictness.strict.number token = .error (.notNumeric token)) ∧
    ∀ convert, Converts convert →
      Bytes.leadingNumber? convert token = some (leadingNumber token) ∧
      Bytes.strictNumber? convert token = some (Strictness.strict.number token) ∧
      ∀ p, Bytes.numberPrefix? text = some (some p) ∨ Bytes.numberPrefix? whole = some (some p) →
        ∃ x, Bytes.prefixValue? convert p = some x := by
  intro text whole
  refine ⟨?prefixes, ⟨?nan, ?none⟩, ?strict, strict_number_of_not_mem, ?bytes⟩
  case prefixes =>
    rintro ⟨q, hq, hmem⟩
    cases hscan : Numeral.scan text with
    | none => exact absurd hmem (Numeral.scan_eq_none.mp hscan q hq)
    | some read =>
      obtain ⟨n, rest⟩ := read
      refine ⟨n.chars, Numeral.scan_longest hscan, ?_⟩
      rw [leadingNumber_of_some hscan]
      exact (spellsNumber_chars (Numeral.scan_sound hscan).1).mpr rfl
  case nan =>
    intro hnan
    cases hscan : Numeral.scan text with
    | none => exact Numeral.scan_eq_none.mp hscan
    | some read =>
      rw [leadingNumber_of_some hscan] at hnan
      exact absurd hnan read.1.value_ne_notANumber
  case none => exact fun hnone => leadingNumber_of_none (Numeral.scan_eq_none.mpr hnone)
  case strict =>
    intro hmem
    obtain ⟨n, hn, hchars⟩ := NumberGrammar.mem_number.mp hmem
    obtain ⟨blanks, hscan⟩ := scan_trimStart hn hchars
    rw [leadingNumber_of_some hscan, ← hchars]
    exact ⟨strict_number_of_whole hn hchars, n.value_ne_notANumber,
      (spellsNumber_chars hn).mpr rfl⟩
  case bytes =>
    intro convert h
    refine ⟨Bytes.leadingNumber?_eq h token, Bytes.strictNumber?_eq h token, ?_⟩
    have hfound {cs p : List Char} (hp : Bytes.numberPrefix? cs = some (some p)) :
        ∃ x, Bytes.prefixValue? convert p = some x := by
      rw [Bytes.numberPrefix?_eq, Option.some.injEq, Option.map_eq_some_iff] at hp
      obtain ⟨⟨n, rest⟩, hscan, rfl⟩ := hp
      exact ⟨_, Bytes.prefixValue?_eq h (Numeral.scan_sound hscan).1⟩
    rintro p (hp | hp)
    · exact hfound hp
    · exact hfound hp

/-- The conversion that takes a text only as a whole. -/
def wholeText (p : List Char) : Option Float :=
  match Numeral.scan p with
  | some (n, []) => some n.value
  | _ => none

theorem converts_wholeText : Converts wholeText := by
  intro p hp
  obtain ⟨n, -, -, -, hn, -, rfl⟩ := NumberGrammar.mem_decimal.mp hp
  refine ⟨n.value, ?_, (spellsNumber_chars hn).mpr rfl⟩
  simp only [wholeText, Numeral.scan_eq_whole.mpr ⟨hn, rfl⟩]

/-- A word with a number in it, an exponent that is not complete, and a character of two bytes. -/
theorem number_prefixes_word :
    (∃ p, LongestPrefix number "-.5e+é".toList p ∧ SpellsNumber p (-0.5)) ∧
      Bytes.leadingNumber? wholeText " -.5e+é" = some (-0.5) ∧
      Bytes.strictNumber? wholeText " -.5e+é" = some (.error (.notNumeric " -.5e+é")) := by
  have hvalue : leadingNumber " -.5e+é" = -0.5 := by decide +kernel
  have hstrict : Strictness.strict.number " -.5e+é" = .error (.notNumeric " -.5e+é") := by
    decide +kernel
  have htext : Text.trimStart " -.5e+é".toList = "-.5e+é".toList := by decide +kernel
  have hnumber : "-.5".toList ∈ number := NumberGrammar.mem_number.mpr
    ⟨⟨some .negative, .decimal [] (some ['5']) none⟩,
      Numeral.wellFormed_decimal.mpr (by simp [Numeral.AllDigits, Numeral.FractionWellFormed,
        Numeral.ExponentWellFormed]), rfl⟩
  obtain ⟨hprefixes, -, -, -, hbytes⟩ := number_prefixes " -.5e+é"
  obtain ⟨hlenient, hstrict', -⟩ := hbytes wholeText converts_wholeText
  rw [hvalue] at hlenient
  rw [hstrict] at hstrict'
  rw [hvalue, htext] at hprefixes
  exact ⟨hprefixes ⟨_, ⟨"e+é".toList, rfl⟩, hnumber⟩, hlenient, hstrict'⟩

end DeskCalculator
