import DeskCalculator.Display
import DeskCalculator.Proofs.Arguments
import DeskCalculator.Proofs.Styles

/-!
# DeskCalculator.Proofs.RoundTrip — what is displayed can be read again

Every number but NaN is displayed as a numeral, and a numeral has no white space in it, so that
both readers take all of the text, and get back the number that was displayed.  Only the sign of a
zero is lost: it is not displayed.

* `Display.read_number`: what both readers make of each displayed number.
-/

namespace DeskCalculator

open Binary64

namespace Numeral

/-- The characters of decimals. -/
def Plain (c : Char) : Prop := c.isDigit ∨ c ∈ "+-.eE".toList

/-- The characters of numerals. -/
def Letter (c : Char) : Prop := c.isDigit ∨ c ∈ "+-.eEInfinity".toList

theorem Plain.letter {c : Char} (h : Plain c) : Letter c := by
  have hsub : "+-.eE".toList ⊆ "+-.eEInfinity".toList := by decide
  exact h.imp_right fun hc => hsub hc

theorem plain_writtenSign {sign : Option Sign} {c : Char} (hc : c ∈ writtenSign sign) :
    Plain c := by
  rcases sign with _ | _ | _
  · cases hc
  · obtain rfl := List.mem_singleton.mp hc
    exact .inr (by decide)
  · obtain rfl := List.mem_singleton.mp hc
    exact .inr (by decide)

/-- The text of a decimal has no other characters. -/
theorem plain_of_mem_chars {sign : Option Sign} {whole : List Char} {fraction : Option (List Char)}
    {exponent : Option Exponent} (hn : WellFormed ⟨sign, .decimal whole fraction exponent⟩) {c : Char}
    (hc : c ∈ chars ⟨sign, .decimal whole fraction exponent⟩) : Plain c := by
  obtain ⟨hwhole, hfraction, -, hexponent⟩ := wellFormed_decimal.mp hn
  rcases List.mem_append.mp hc with hc | hc
  · exact plain_writtenSign hc
  rcases List.mem_append.mp hc with hc | hc
  · rcases List.mem_append.mp hc with hc | hc
    · exact .inl (hwhole c hc)
    · cases fraction with
      | none => cases hc
      | some digits =>
        rcases List.mem_cons.mp hc with rfl | hc
        · exact .inr (by decide)
        · exact .inl ((hfraction digits rfl).1 c hc)
  · cases exponent with
    | none => cases hc
    | some e =>
      rcases List.mem_cons.mp hc with rfl | hc
      · right
        cases e.capital <;> decide
      · rcases List.mem_append.mp hc with hc | hc
        · exact plain_writtenSign hc
        · exact .inl ((hexponent e rfl).1 c hc)

/-- The text of a numeral has no other characters. -/
theorem letter_of_mem_chars {n : Numeral} (hn : n.WellFormed) {c : Char} (hc : c ∈ n.chars) :
    Letter c := by
  obtain ⟨sign, magnitude⟩ := n
  cases magnitude with
  | infinity =>
    rcases List.mem_append.mp hc with hc | hc
    · exact (plain_writtenSign hc).letter
    · have hsub : "Infinity".toList ⊆ "+-.eEInfinity".toList := by decide
      exact .inr (hsub hc)
  | decimal whole fraction exponent => exact (plain_of_mem_chars hn hc).letter

theorem toNat_of_isDigit {c : Char} (h : c.isDigit) : 48 ≤ c.toNat ∧ c.toNat ≤ 57 := by
  simp only [Char.isDigit, Bool.and_eq_true, decide_eq_true_eq, ge_iff_le,
    UInt32.le_iff_toNat_le] at h
  exact h

theorem not_blank_of_letter {c : Char} (h : Letter c) : Text.isBlank c = false := by
  rcases h with h | h
  · obtain ⟨hlow, hhigh⟩ := toNat_of_isDigit h
    simp only [Text.isBlank, Bool.or_eq_false_iff, Bool.and_eq_false_iff, decide_eq_false_iff_not,
      beq_eq_false_iff_ne]
    omega
  · have hall : "+-.eEInfinity".toList.all (fun c => !Text.isBlank c) := by decide
    simpa using List.all_eq_true.mp hall c h

theorem unspaced_chars {n : Numeral} (hn : n.WellFormed) : Text.Unspaced n.chars :=
  fun _ hc => not_blank_of_letter (letter_of_mem_chars hn hc)

end Numeral

namespace Display

theorem toList_number (x : Float) : (number x).toList = Decimal.display.chars x :=
  String.toList_ofList

theorem zero_wellFormed (s : Sign) : (Decimal.display.zero s).WellFormed :=
  Decimal.placed_wellFormed (Decimal.allDigits_zeros 1) (by decide) none nofun

theorem zero_value (s : Sign) : (Decimal.display.zero s).value = zero .positive := by
  cases s <;> decide +kernel

/-- Every number but NaN is displayed as a numeral of that number, without the sign of a zero. -/
theorem exists_numeral {x : Float} (h : x ≠ notANumber) :
    ∃ n : Numeral, n.WellFormed ∧ n.chars = (number x).toList ∧ n.value = unsigned x := by
  rw [toList_number]
  rcases number_cases x with rfl | ⟨s, rfl⟩ | ⟨s, rfl⟩ | ⟨s, m, q, hp, hx⟩
  · exact absurd rfl h
  · refine ⟨⟨Decimal.numberSign s, .infinity⟩, trivial, ?_, ?_⟩
    · rw [Decimal.Style.chars, parts_infinity]
      cases s <;> rfl
    · rw [unsigned, parts_infinity]
      cases s <;> rfl
  · rw [Decimal.Style.chars, parts_zero, unsigned_zero]
    exact ⟨_, zero_wellFormed s, rfl, zero_value s⟩
  · rw [unsigned, hx]
    exact Decimal.Style.exists_numeral_of_parts Decimal.Style.display_faithful hp hx

/-- What is displayed is read as the same number, without the sign of a zero. -/
theorem number_unsigned {x : Float} (h : x ≠ notANumber) :
    leadingNumber (number x) = unsigned x ∧
      ∀ s : Strictness, s.number (number x) = .ok (unsigned x) := by
  obtain ⟨n, hn, hchars, hvalue⟩ := exists_numeral h
  have hspaces : Text.Unspaced (number x).toList := hchars ▸ Numeral.unspaced_chars hn
  simpa only [hvalue] using Strictness.number_written hn hchars hspaces

theorem number_notANumber : number notANumber = "NaN" := by
  unfold number Decimal.Style.write Decimal.Style.chars
  rw [parts_notANumber]
  rfl

theorem leadingNumber_number (x : Float) : leadingNumber (number x) = unsigned x := by
  by_cases hx : x = notANumber
  · subst hx
    rw [number_notANumber, unsigned_eq (by decide +kernel)]
    rfl
  · exact (number_unsigned hx).1

/-- **What is displayed can be read again.**  Every number but NaN and the zero with a minus sign is
read as itself, by both readers; that zero is read as the other one, and NaN as NaN where reading is
lenient, and not at all where it is strict. -/
theorem read_number :
    (∀ x : Float, x ≠ notANumber → x ≠ zero .negative →
      leadingNumber (number x) = x ∧ ∀ s : Strictness, s.number (number x) = .ok x) ∧
    (leadingNumber (number (zero .negative)) = zero .positive ∧
      ∀ s : Strictness, s.number (number (zero .negative)) = .ok (zero .positive)) ∧
    (leadingNumber (number notANumber) = notANumber ∧
      Strictness.lenient.number (number notANumber) = .ok notANumber ∧
      Strictness.strict.number (number notANumber) = .error (.notNumeric "NaN")) := by
  refine ⟨fun x hnan hsigned => ?_, ?_, ?_⟩
  · have h := number_unsigned hnan
    rwa [unsigned_eq hsigned] at h
  · have hzero : zero .negative ≠ notANumber := by decide +kernel
    have h := number_unsigned hzero
    rwa [unsigned_zero] at h
  · rw [number_notANumber]
    exact ⟨rfl, rfl, rfl⟩

/-- The least positive number, the largest finite one, and an infinity. -/
theorem read_number_extremes :
    leadingNumber (number (nearest .positive 1 (-1074))) = nearest .positive 1 (-1074) ∧
    Strictness.strict.number (number (nearest .negative (2 ^ 53 - 1) 971)) =
      .ok (nearest .negative (2 ^ 53 - 1) 971) ∧
    Strictness.strict.number (number (infinity .negative)) = .ok (infinity .negative) :=
  ⟨(read_number.1 _ (by decide +kernel) (by decide +kernel)).1,
    (read_number.1 _ (by decide +kernel) (by decide +kernel)).2 .strict,
    (read_number.1 _ (by decide +kernel) (by decide +kernel)).2 .strict⟩

end Display

end DeskCalculator
