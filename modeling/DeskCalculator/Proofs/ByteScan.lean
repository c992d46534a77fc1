import DeskCalculator.Proofs.NumberGrammar
import DeskCalculator.Proofs.RoundTrip

/-!
# DeskCalculator.Proofs.ByteScan — the reader of numerals, on the bytes of a text

A text in memory is its UTF-8 encoding, and the reader can go through the bytes and take the text
apart between two of them.  There is no place to take it apart inside of a character: `splitAt?` has
nothing to answer then.  The reader of bytes never asks for such a place, since it passes over
nothing but characters of one byte, and it takes what the reader of characters takes.

* `Bytes.numberPrefix?_eq`: the reader of bytes takes what the reader of characters takes.
-/

namespace DeskCalculator

namespace Bytes

/-- The UTF-8 encoding of a text. -/
def ofText (cs : List Char) : List UInt8 := cs.flatMap String.utf8EncodeChar

def isDigit (b : UInt8) : Bool := 48 ≤ b.toNat && b.toNat ≤ 57

/-- Takes a text apart before its byte `i`.  There is no such place inside of a character, or behind
the end of the text. -/
def splitAt? : Nat → List Char → Option (List Char × List Char)
  | 0, cs => some ([], cs)
  | _ + 1, [] => none
  | i + 1, c :: cs =>
    if c.utf8Size ≤ i + 1 then
      (splitAt? (i + 1 - c.utf8Size) cs).map fun (front, rest) => (c :: front, rest)
    else none

/-! ## The reader of bytes -/

/-- The end of the digits from the byte `i` on. -/
def digitsEnd (bytes : List UInt8) (i : Nat) : Nat :=
  if h : i < bytes.length then
    if isDigit bytes[i] then digitsEnd bytes (i + 1) else i
  else i
termination_by bytes.length - i

/-- The end of the sign at the byte `i`, if there is one. -/
def signEnd (bytes : List UInt8) (i : Nat) : Nat :=
  if bytes[i]? = some '+'.toUInt8 ∨ bytes[i]? = some '-'.toUInt8 then i + 1 else i

/-- The number of digits before and behind a point at the byte `i`, of which there are `whole`
before it, and the end of those behind it. -/
def fractionEnd (bytes : List UInt8) (whole i : Nat) : Nat × Nat :=
  if bytes[i]? = some '.'.toUInt8 then
    let stop := digitsEnd bytes (i + 1)
    if 0 < whole ∨ i + 1 < stop then (whole + (stop - (i + 1)), stop) else (whole, i)
  else (whole, i)

/-- The end of the exponent at the byte `i`, if there is a complete one. -/
def exponentEnd (bytes : List UInt8) (i : Nat) : Nat :=
  if bytes[i]? = some 'e'.toUInt8 ∨ bytes[i]? = some 'E'.toUInt8 then
    let start := signEnd bytes (i + 1)
    let stop := digitsEnd bytes start
    if start < stop then stop else i
  else i

/-- The numeral at the start of a text.  Nothing is answered if the text was to be taken apart inside
of a character. -/
def numberPrefix? (cs : List Char) : Option (Option (List Char)) := do
  let bytes := ofText cs
  let start := signEnd bytes 0
  let (_, body) ← splitAt? start cs
  if "Infinity".toList.isPrefixOf body then
    let (text, _) ← splitAt? (start + "Infinity".utf8ByteSize) cs
    return some text
  let stop := digitsEnd bytes start
  let (digits, stop) := fractionEnd bytes (stop - start) stop
  if digits = 0 then return none
  let (text, _) ← splitAt? (exponentEnd bytes stop) cs
  return some text

/-! ## Bytes and characters -/

@[simp] theorem ofText_nil : ofText [] = [] := rfl

@[simp] theorem ofText_cons (c : Char) (cs : List Char) :
    ofText (c :: cs) = String.utf8EncodeChar c ++ ofText cs := rfl

@[simp] theorem ofText_append (cs ds : List Char) : ofText (cs ++ ds) = ofText cs ++ ofText ds :=
  List.flatMap_append

/-- A character is one small byte, or its first byte is large. -/
theorem utf8EncodeChar_cases (c : Char) :
    (c.toNat < 128 ∧ String.utf8EncodeChar c = [c.toUInt8]) ∨
      128 ≤ c.toNat ∧ ∃ b bs, String.utf8EncodeChar c = b :: bs ∧ 128 ≤ b.toNat := by
  have htoNat : c.toNat = c.val.toNat := rfl
  unfold String.utf8EncodeChar
  dsimp only
  rw [htoNat]
  split
  · next h =>
    exact .inl ⟨by omega, rfl⟩
  · next h =>
    refine .inr ⟨by omega, ?_⟩
    split
    · refine ⟨_, _, rfl, ?_⟩
      rw [UInt8.toNat_ofNat']
      omega
    · split
      · refine ⟨_, _, rfl, ?_⟩
        rw [UInt8.toNat_ofNat']
        omega
      · refine ⟨_, _, rfl, ?_⟩
        rw [UInt8.toNat_ofNat']
        omega

/-- The byte of a small character. -/
theorem toNat_toUInt8 {c : Char} (h : c.toNat < 128) : c.toUInt8.toNat = c.toNat :=
  Nat.mod_eq_of_lt (h.trans (by norm_num))

/-- A small character is told from the first byte. -/
theorem head?_ofText {cs : List Char} {d : Char} (hd : d.toNat < 128) :
    (ofText cs).head? = some d.toUInt8 ↔ cs.head? = some d := by
  cases cs with
  | nil => simp
  | cons c cs =>
    rw [ofText_cons, List.head?_cons, Option.some.injEq]
    rcases utf8EncodeChar_cases c with ⟨hc, hbytes⟩ | ⟨hc, b, bs, hbytes, hb⟩
    · rw [hbytes]
      simp only [List.cons_append, List.nil_append, List.head?_cons, Option.some.injEq]
      constructor
      · intro h
        have h := congrArg UInt8.toNat h
        rw [toNat_toUInt8 hc, toNat_toUInt8 hd] at h
        exact Char.toNat_inj.mp h
      · exact congrArg Char.toUInt8
    · rw [hbytes]
      simp only [List.cons_append, List.head?_cons, Option.some.injEq]
      constructor
      · intro h
        have h := congrArg UInt8.toNat h
        rw [toNat_toUInt8 hd] at h
        omega
      · intro h
        rw [h] at hc
        omega

theorem length_ofText {cs : List Char} (h : ∀ c ∈ cs, c.toNat < 128) :
    (ofText cs).length = cs.length := by
  induction cs with
  | nil => rfl
  | cons c cs ih =>
    obtain ⟨hc, hcs⟩ := List.forall_mem_cons.mp h
    rcases utf8EncodeChar_cases c with ⟨-, hbytes⟩ | ⟨hlarge, -⟩
    · rw [ofText_cons, hbytes, List.length_append, ih hcs, List.length_cons]
      exact Nat.add_comm 1 _
    · omega

theorem splitAt?_zero (cs : List Char) : splitAt? 0 cs = some ([], cs) := by
  cases cs <;> rfl

/-- A text can be taken apart behind as many bytes as some of its first characters have. -/
theorem splitAt?_length (front rest : List Char) :
    splitAt? (ofText front).length (front ++ rest) = some (front, rest) := by
  induction front with
  | nil => exact splitAt?_zero rest
  | cons c front ih =>
    have hlength : (ofText (c :: front)).length = c.utf8Size + (ofText front).length := by
      rw [ofText_cons, List.length_append, String.length_utf8EncodeChar]
    obtain ⟨n, hn⟩ : ∃ n, c.utf8Size + (ofText front).length = n + 1 :=
      ⟨_, (Nat.succ_pred_eq_of_pos (Nat.add_pos_left c.utf8Size_pos _)).symm⟩
    have hrest : n + 1 - c.utf8Size = (ofText front).length := by omega
    rw [hlength, hn, List.cons_append, splitAt?, if_pos (by omega), hrest, ih]
    rfl

/-- Where the first byte of `rest` is in the text `cs`. -/
def At (cs : List Char) (i : Nat) (rest : List Char) : Prop :=
  ∃ front, front ++ rest = cs ∧ (ofText front).length = i

section

variable {cs rest : List Char} {i : Nat}

theorem at_zero (cs : List Char) : At cs 0 cs := ⟨[], rfl, rfl⟩

theorem At.append {more : List Char} (h : At cs i (more ++ rest)) :
    At cs (i + (ofText more).length) rest := by
  obtain ⟨front, rfl, rfl⟩ := h
  exact ⟨front ++ more, by simp, by simp⟩

theorem At.cons {c : Char} (h : At cs i (c :: rest)) (hc : c.toNat < 128) : At cs (i + 1) rest := by
  have hlength : (ofText [c]).length = 1 := length_ofText (List.forall_mem_singleton.mpr hc)
  rw [← hlength]
  exact At.append h

theorem At.getElem? (h : At cs i rest) : (ofText cs)[i]? = (ofText rest).head? := by
  obtain ⟨front, rfl, rfl⟩ := h
  rw [ofText_append, List.getElem?_append_right (Nat.le_refl _), Nat.sub_self, List.head?_eq_getElem?]

/-- Between two characters a text can be taken apart. -/
theorem At.split (h : At cs i rest) : ∃ front, splitAt? i cs = some (front, rest) := by
  obtain ⟨front, rfl, rfl⟩ := h
  exact ⟨front, splitAt?_length front rest⟩

/-- What stands before a place is told from what stands behind it. -/
theorem At.split_eq {front : List Char} (h : At cs i rest) (hcs : front ++ rest = cs) :
    splitAt? i cs = some (front, rest) := by
  obtain ⟨front', hcs', rfl⟩ := h
  obtain rfl := List.append_cancel_right (hcs.trans hcs'.symm)
  rw [← hcs]
  exact splitAt?_length front rest

/-- The first byte at a place is a small character if this is the first one there. -/
theorem At.byte_iff {d : Char} (h : At cs i rest) (hd : d.toNat < 128) :
    (ofText cs)[i]? = some d.toUInt8 ↔ rest.head? = some d := by
  rw [h.getElem?, head?_ofText hd]

theorem small_of_isDigit {c : Char} (h : c.isDigit) : c.toNat < 128 := by
  have := (Numeral.toNat_of_isDigit h).2
  omega

/-- Whether a character is a digit is told from its first byte. -/
theorem exists_first_byte (c : Char) :
    ∃ b bs, String.utf8EncodeChar c = b :: bs ∧ isDigit b = c.isDigit := by
  rcases utf8EncodeChar_cases c with ⟨hsmall, hbytes⟩ | ⟨hlarge, b, bs, hbytes, hb⟩
  · refine ⟨_, _, hbytes, ?_⟩
    simp only [isDigit, toNat_toUInt8 hsmall, Char.isDigit, ge_iff_le, UInt32.le_iff_toNat_le]
    rfl
  · have hbyte : isDigit b = false := by
      simp only [isDigit, Bool.and_eq_false_iff, decide_eq_false_iff_not]
      omega
    have hchar : c.isDigit = false := by
      rw [Bool.eq_false_iff]
      intro hdigit
      have := small_of_isDigit hdigit
      omega
    exact ⟨b, bs, hbytes, hbyte.trans hchar.symm⟩

theorem digitsEnd_of_some {bytes : List UInt8} {b : UInt8} (h : bytes[i]? = some b) :
    digitsEnd bytes i = if isDigit b then digitsEnd bytes (i + 1) else i := by
  obtain ⟨hi, rfl⟩ := List.getElem?_eq_some_iff.mp h
  rw [digitsEnd, dif_pos hi]

theorem digitsEnd_of_none {bytes : List UInt8} (h : bytes[i]? = none) : digitsEnd bytes i = i := by
  rw [digitsEnd, dif_neg (by simpa using h)]

theorem length_takeWhile_digits (cs : List Char) :
    (ofText (cs.takeWhile Char.isDigit)).length = (cs.takeWhile Char.isDigit).length :=
  length_ofText fun c hc => small_of_isDigit (allDigits_takeWhile cs c hc)

/-- The bytes that are digits are as many as the characters that are. -/
theorem At.digitsEnd_eq (h : At cs i rest) :
    digitsEnd (ofText cs) i = i + (rest.takeWhile Char.isDigit).length := by
  induction rest generalizing i with
  | nil => exact digitsEnd_of_none h.getElem?
  | cons c rest ih =>
    obtain ⟨b, bs, hbytes, hb⟩ := exists_first_byte c
    have hbyte : (ofText cs)[i]? = some b := by
      rw [h.getElem?, ofText_cons, hbytes]
      rfl
    rw [digitsEnd_of_some hbyte, hb, List.takeWhile_cons]
    cases hdigit : c.isDigit with
    | false => rfl
    | true =>
      rw [if_pos rfl, if_pos rfl, ih (h.cons (small_of_isDigit hdigit)), List.length_cons]
      omega

theorem At.digits (h : At cs i rest) :
    At cs (digitsEnd (ofText cs) i) (rest.dropWhile Char.isDigit) := by
  rw [h.digitsEnd_eq, ← length_takeWhile_digits]
  refine At.append ?_
  rwa [List.takeWhile_append_dropWhile]

/-! ## The reader of bytes is the reader of characters -/

theorem At.sign (h : At cs i rest) : At cs (signEnd (ofText cs) i) (scanSign rest).2 := by
  have hbyte := or_congr (h.byte_iff (d := '+') (by decide)) (h.byte_iff (d := '-') (by decide))
  unfold signEnd
  by_cases hsign : rest.head? = some '+' ∨ rest.head? = some '-'
  · rw [if_pos (hbyte.mpr hsign)]
    rcases hsign with hsign | hsign
    · obtain ⟨behind, rfl⟩ := List.head?_eq_some_iff.mp hsign
      exact h.cons (by decide)
    · obtain ⟨behind, rfl⟩ := List.head?_eq_some_iff.mp hsign
      exact h.cons (by decide)
  · rw [if_neg (hbyte.not.mpr hsign)]
    have hunsigned : Unsigned rest := by
      intro c hc
      refine ⟨?_, ?_⟩
      · rintro rfl
        exact hsign (.inl hc)
      · rintro rfl
        exact hsign (.inr hc)
    have hscan : scanSign rest = (none, rest) := scanSign_written none hunsigned
    rwa [hscan]

/-- A fraction ends where it does in the text, and has as many digits. -/
theorem At.fraction (h : At cs i rest) (whole : List Char) :
    ∃ stop, At cs stop (Numeral.scanFraction whole rest).2 ∧
      fractionEnd (ofText cs) whole.length i =
        (whole.length + ((Numeral.scanFraction whole rest).1.getD []).length, stop) := by
  have hbyte := h.byte_iff (d := '.') (by decide)
  unfold fractionEnd
  by_cases hpoint : rest.head? = some '.'
  · obtain ⟨behind, rfl⟩ := List.head?_eq_some_iff.mp hpoint
    have hnext := h.cons (by decide)
    have hstop := hnext.digitsEnd_eq
    rw [if_pos (hbyte.mpr hpoint), Numeral.scanFraction_point]
    dsimp only
    by_cases hdigits : (whole.isEmpty && (behind.takeWhile Char.isDigit).isEmpty) = true
    · rw [if_pos hdigits, if_neg]
      · exact ⟨i, h, rfl⟩
      · simp only [Bool.and_eq_true, List.isEmpty_iff] at hdigits
        rw [hstop, hdigits.1, hdigits.2]
        simp
    · rw [if_neg hdigits, if_pos]
      · refine ⟨_, hnext.digits, ?_⟩
        rw [hstop, Nat.add_sub_cancel_left]
        rfl
      · rw [hstop]
        simp only [Bool.and_eq_true, List.isEmpty_iff, not_and_or] at hdigits
        rcases hdigits with hne | hne
        · exact .inl (List.length_pos_iff.mpr hne)
        · exact .inr (Nat.lt_add_of_pos_right (List.length_pos_iff.mpr hne))
  · rw [if_neg (hbyte.not.mpr hpoint), Numeral.scanFraction_of_ne hpoint]
    exact ⟨i, h, rfl⟩

theorem At.exponent (h : At cs i rest) :
    At cs (exponentEnd (ofText cs) i) (Numeral.scanExponent rest).2 := by
  have hbyte := or_congr (h.byte_iff (d := 'e') (by decide)) (h.byte_iff (d := 'E') (by decide))
  unfold exponentEnd
  by_cases hletter : rest.head? = some 'e' ∨ rest.head? = some 'E'
  · rw [if_pos (hbyte.mpr hletter)]
    obtain ⟨capital, behind, rfl⟩ :
        ∃ capital behind, rest = Numeral.Exponent.letter capital :: behind := by
      rcases hletter with hletter | hletter
      · obtain ⟨behind, rfl⟩ := List.head?_eq_some_iff.mp hletter
        exact ⟨false, behind, rfl⟩
      · obtain ⟨behind, rfl⟩ := List.head?_eq_some_iff.mp hletter
        exact ⟨true, behind, rfl⟩
    have hsign := (h.cons (by cases capital <;> decide)).sign
    have hstop := hsign.digitsEnd_eq
    rw [Numeral.scanExponent_letter]
    dsimp only
    by_cases hdigits : ((scanSign behind).2.takeWhile Char.isDigit).isEmpty = true
    · rw [if_pos hdigits, if_neg]
      · exact h
      · rw [hstop, List.isEmpty_iff.mp hdigits]
        simp
    · rw [if_neg hdigits, if_pos]
      · exact hsign.digits
      · rw [hstop]
        rw [List.isEmpty_iff] at hdigits
        exact Nat.lt_add_of_pos_right (List.length_pos_iff.mpr hdigits)
  · rw [if_neg (hbyte.not.mpr hletter)]
    rcases Numeral.scanExponent_cases rest with ⟨capital, behind, rfl⟩ | hscan
    · cases capital
      · exact absurd (.inl rfl) hletter
      · exact absurd (.inr rfl) hletter
    · rwa [hscan]

end

/-- There is a digit in what was found before an exponent, or nothing was found. -/
theorem digits_eq_zero_iff {whole : List Char} {fraction : Option (List Char)}
    (h : Numeral.FractionWellFormed whole fraction) :
    whole.length + (fraction.getD []).length = 0 ↔ (whole.isEmpty && fraction.isNone) = true := by
  cases fraction with
  | none => simp
  | some digits =>
    have hne := (h digits rfl).2
    simp only [Option.getD_some, Nat.add_eq_zero_iff, List.length_eq_zero_iff, Option.isNone_some,
      Bool.and_false, Bool.false_eq_true, iff_false, not_and]
    exact hne

/-- **The reader of bytes takes what the reader of characters takes**, and it always answers: no text
is taken apart inside of a character. -/
theorem numberPrefix?_eq (cs : List Char) :
    numberPrefix? cs = some ((Numeral.scan cs).map fun read => read.1.chars) := by
  obtain ⟨sign, body, hsign⟩ : ∃ sign body, scanSign cs = (sign, body) := ⟨_, _, rfl⟩
  have hstart := (at_zero cs).sign
  rw [hsign] at hstart
  -- where the reader of characters stops, the text is taken apart as it says
  have hstop {n : Numeral} {rest : List Char} {i : Nat} (hscan : Numeral.scan cs = some (n, rest))
      (h : At cs i rest) : splitAt? i cs = some (n.chars, rest) :=
    h.split_eq (Numeral.scan_sound hscan).2
  obtain ⟨front, hsplit⟩ := hstart.split
  unfold numberPrefix?
  simp only [hsplit, Option.bind_eq_bind, Option.bind_some]
  by_cases hinfinity : "Infinity".toList.isPrefixOf body = true
  · obtain ⟨behind, rfl⟩ := List.isPrefixOf_iff_prefix.mp hinfinity
    have hscan := Numeral.scan_of_infinity hsign
    have hafter : At cs (signEnd (ofText cs) 0 + "Infinity".utf8ByteSize) behind := hstart.append
    rw [if_pos hinfinity, hstop hscan hafter, hscan]
    rfl
  · have hcount : digitsEnd (ofText cs) (signEnd (ofText cs) 0) - signEnd (ofText cs) 0 =
        (body.takeWhile Char.isDigit).length := by
      rw [hstart.digitsEnd_eq, Nat.add_sub_cancel_left]
    obtain ⟨stop, hfractionEnd, hend⟩ := hstart.digits.fraction (body.takeWhile Char.isDigit)
    obtain ⟨fraction, rest, hfraction⟩ : ∃ fraction rest, Numeral.scanFraction
        (body.takeWhile Char.isDigit) (body.dropWhile Char.isDigit) = (fraction, rest) := ⟨_, _, rfl⟩
    rw [hfraction] at hfractionEnd hend
    have hscan := Numeral.scan_of_decimal hsign hinfinity hfraction
    have hfound := digits_eq_zero_iff (Numeral.scanFraction_sound hfraction).1
    rw [if_neg hinfinity, hcount, hend]
    dsimp only
    by_cases hnone : ((body.takeWhile Char.isDigit).isEmpty && fraction.isNone) = true
    · rw [if_pos (hfound.mpr hnone), hscan, if_pos hnone]
      rfl
    · rw [if_neg hnone] at hscan
      rw [if_neg (hfound.not.mpr hnone), hstop hscan hfractionEnd.exponent, hscan]
      rfl

end Bytes

end DeskCalculator
