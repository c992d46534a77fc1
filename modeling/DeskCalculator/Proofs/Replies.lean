import DeskCalculator.Proofs.Readings
import DeskCalculator.Session.Basic

/-!
# DeskCalculator.Proofs.Replies — no reply reads like a complaint

A session puts a fault into words that begin with `Error: `.  The text of a reply never begins so:
it begins with the name of an operation, with a word of its own, or, for a chain operation, with a
number as it is displayed, and that begins with a digit, a minus sign, or the first letter of
`Infinity` or `NaN`.  So the texts of a session tell which of its lines had a fault.

* `Display.number_opens`: how a displayed number begins.
* `Interpreter.isComplaint_of_submit`: the text of a reply is no complaint.
-/

namespace DeskCalculator

/-! ## The first character of a displayed number -/

/-- The first character of a text. -/
def Opens (text : String) (c : Char) : Prop := c ∈ text.toList.head?

theorem Opens.append {text : String} {c : Char} (h : Opens text c) (more : String) :
    Opens (text ++ more) c := by
  have hhead : text.toList.head? = some c := h
  simp [Opens, hhead]

/-- There is a digit before the point. -/
def Numeral.Magnitude.StartsWithDigit : Magnitude → Prop
  | .infinity => False
  | .decimal whole _ _ => ∃ c ∈ whole.head?, c.isDigit

theorem Numeral.head?_chars {n : Numeral} (h : n.magnitude.StartsWithDigit) :
    ∃ c ∈ n.chars.head?, c.isDigit ∨ c ∈ ['+', '-'] := by
  obtain ⟨sign, magnitude⟩ := n
  cases magnitude with
  | infinity => cases h
  | decimal whole fraction exponent =>
    obtain ⟨c, hc, hdigit⟩ := h
    cases sign with
    | none =>
      refine ⟨c, ?_, .inl hdigit⟩
      simp_all [chars, writtenSign]
    | some s => cases s <;> simp [chars, writtenSign]

namespace Decimal

theorem head?_chars (d : Decimal) : ∃ c ∈ d.chars.head?, c.isDigit := by
  have hne : d.chars ≠ [] := Nat.toDigits_ne_nil
  have hmem : d.chars.head hne ∈ Nat.toDigits 10 d.digits := List.head_mem hne
  exact ⟨d.chars.head hne, List.head?_eq_some_head hne,
    Nat.isDigit_of_mem_toDigits (by decide) (by decide) hmem⟩

section

variable {digits : List Char} (h : ∃ c ∈ digits.head?, c.isDigit)
include h

theorem placed_startsWithDigit (wholeFraction : Option (List Char)) (point : Int) :
    (placed wholeFraction digits point).StartsWithDigit := by
  obtain ⟨c, hc, hdigit⟩ := h
  unfold placed
  split
  case isTrue => exact ⟨'0', rfl, rfl⟩
  case isFalse hpoint =>
    have hpos : point.toNat ≠ 0 := by omega
    dsimp only
    split
    · exact ⟨c, by simp [List.head?_append, Option.mem_def.mp hc], hdigit⟩
    · exact ⟨c, by simpa [List.head?_take, hpos] using hc, hdigit⟩

theorem scaled_startsWithDigit (exponentSign : Option Binary64.Sign) (point : Int) :
    (scaled exponentSign digits point).StartsWithDigit := by
  obtain ⟨c, hc, hdigit⟩ := h
  exact ⟨c, by simpa [List.head?_take] using hc, hdigit⟩

end

theorem Style.magnitude_startsWithDigit (style : Style) (d : Decimal) :
    (style.magnitude d).StartsWithDigit := by
  unfold magnitude
  split
  · exact placed_startsWithDigit d.head?_chars _ _
  · exact scaled_startsWithDigit d.head?_chars _ _

end Decimal

/-- A displayed number begins with a digit, with a sign, or with the first letter of what is shown
for a number that is not finite. -/
theorem Display.number_opens (x : Float) :
    ∃ c, Opens (Display.number x) c ∧ (c.isDigit ∨ c ∈ ['+', '-', 'I', 'N']) := by
  have hnumber : (Display.number x).toList = Decimal.display.chars x := String.toList_ofList
  simp only [Opens, hnumber, Decimal.Style.chars]
  cases Binary64.parts x with
  | notANumber => exact ⟨'N', rfl, .inr (by simp)⟩
  | infinity s =>
    cases s with
    | positive => exact ⟨'I', rfl, .inr (by simp)⟩
    | negative => exact ⟨'-', rfl, .inr (by simp)⟩
  | zero s => exact ⟨'0', rfl, .inl rfl⟩
  | finite s m q hm =>
    have hstart : (Decimal.display.finite s m q).magnitude.StartsWithDigit :=
      Decimal.display.magnitude_startsWithDigit _
    obtain ⟨c, hc, hkind⟩ := Numeral.head?_chars hstart
    exact ⟨c, hc, hkind.imp_right (List.mem_append_left ['I', 'N'])⟩

/-! ## Replies -/

/-- Whether a text begins like the words for a fault. -/
def isComplaint (text : String) : Bool := "Error: ".toList.isPrefixOf text.toList

theorem isComplaint_complaint (fault : Fault) : isComplaint (Session.complaint fault) = true := by
  simp [isComplaint, Session.complaint]

theorem isComplaint_of_opens {text : String} {c : Char} (h : Opens text c) (hc : c ≠ 'E') :
    isComplaint text = false := by
  obtain ⟨cs, hcs⟩ : ∃ cs, text.toList = c :: cs := List.head?_eq_some_iff.mp h
  have hE : ('E' == c) = false := by simpa using Ne.symm hc
  simp [isComplaint, hcs, List.isPrefixOf, hE]

/-- What begins with a displayed number is no complaint. -/
theorem isComplaint_number_append (x : Float) (more : String) :
    isComplaint (Display.number x ++ more) = false := by
  obtain ⟨c, hopens, hc⟩ := Display.number_opens x
  refine isComplaint_of_opens (hopens.append more) ?_
  rintro rfl
  revert hc
  decide

theorem Computation.tag_opens (x : Computation) : ∃ c, Opens x.tag c ∧ c ≠ 'E' := by
  cases x with
  | unary f x => cases f <;> simp [Opens, tag, Unary.tag]
  | binary f a b => cases f <;> simp [Opens, tag, Binary.tag]

namespace Instruction

theorem reply_eq_ok {α : Type} {words : α → String} {step : Calculator × Except Fault α}
    {r : Reply} (h : (reply words step).2 = .ok r) :
    ∃ a, step.2 = .ok a ∧ r = { text := words a } := by
  obtain ⟨c, outcome⟩ := step
  cases outcome with
  | ok a => cases h; exact ⟨a, rfl, rfl⟩
  | error fault => cases h

theorem perform_memory (help : String) (request : MemoryRequest) (c : Calculator) :
    (memory request).perform help c =
      ((c.access request).1, .ok { text := memoryText (c.access request).2 request }) := rfl

theorem memoryText_opens (answer : Float) (request : MemoryRequest) :
    Opens (memoryText answer request) 'M' := by
  have hstore : Opens "Memory store: " 'M' := rfl
  have hretrieve : Opens "Memory recall: " 'M' := rfl
  have hclear : Opens "Memory clear: 0 (was " 'M' := rfl
  have hadd : Opens "Memory add: " 'M' := rfl
  have hsubtract : Opens "Memory subtract: " 'M' := rfl
  cases request with
  | store x => exact hstore.append _
  | retrieve => exact hretrieve.append _
  | clear => exact (hclear.append _).append _
  | add x => exact hadd.append _
  | subtract x => exact hsubtract.append _

/-- **The text of a reply is no complaint**, if the help text is none. -/
theorem isComplaint_of_perform {help : String} {i : Instruction} {c : Calculator}
    {r : Reply} (h : (i.perform help c).2 = .ok r) (hhelp : isComplaint help = false) :
    isComplaint r.text = false := by
  cases i with
  | compute x =>
    obtain ⟨first, hopens, hE⟩ := x.tag_opens
    obtain ⟨result, -, rfl⟩ := reply_eq_ok h
    exact isComplaint_of_opens ((((hopens.append _).append _).append _).append _) hE
  | chain op b =>
    obtain ⟨result, -, rfl⟩ := reply_eq_ok h
    simp only [String.append_assoc]
    exact isComplaint_number_append _ _
  | setAngleUnit text =>
    obtain ⟨unit, -, rfl⟩ := reply_eq_ok h
    have hopens : Opens "Angle mode set to " 'A' := rfl
    exact isComplaint_of_opens (hopens.append _) (by decide)
  | setPrecision n =>
    obtain ⟨precision, -, rfl⟩ := reply_eq_ok h
    have hopens : Opens "Precision set to " 'P' := rfl
    exact isComplaint_of_opens (hopens.append _) (by decide)
  | memory request =>
    rw [perform_memory] at h
    obtain rfl := Except.ok.inj h
    exact isComplaint_of_opens (memoryText_opens _ request) (by decide)
  | showLast =>
    cases h
    have hopens : Opens "Last result: " 'L' := rfl
    exact isComplaint_of_opens (hopens.append _) (by decide)
  | showHistory =>
    cases h
    have hopens : Opens "Operation history:\n" 'O' := rfl
    simp only [historyText]
    split
    · rfl
    · exact isComplaint_of_opens (hopens.append _) (by decide)
  | showMemoryLog =>
    cases h
    have hopens : Opens "Memory history:\n" 'M' := rfl
    simp only [memoryLogText]
    split
    · rfl
    · exact isComplaint_of_opens (hopens.append _) (by decide)
  | showSettings =>
    cases h
    have hopens : Opens "Angle mode: " 'A' := rfl
    exact isComplaint_of_opens (((hopens.append _).append _).append _) (by decide)
  | showConstant k =>
    cases h
    have hopens : ∃ c, Opens k.name c ∧ c ≠ 'E' := by cases k <;> simp [Opens, Constant.name]
    obtain ⟨first, hfirst, hE⟩ := hopens
    exact isComplaint_of_opens ((hfirst.append _).append _) hE
  | clearHistory => cases h; rfl
  | help => cases h; exact hhelp
  | exit => cases h; rfl

end Instruction

theorem Catalogue.isComplaint_help (catalogue : Catalogue) :
    isComplaint catalogue.help = false := by
  have hopens : Opens "Available commands:" 'A' := rfl
  exact isComplaint_of_opens ((hopens.append _).append _) (by decide)

/-- The text of a reply to a line is no complaint. -/
theorem Interpreter.isComplaint_of_submit {i : Interpreter} {line : String} {r : Reply}
    (h : (i.submit line).2 = .ok (some r)) : isComplaint r.text = false := by
  rw [submit_snd] at h
  cases hread : i.catalogue.reading i.strictness line with
  | blank => rw [hread] at h; cases h
  | refused fault => rw [hread] at h; cases h
  | instruction instruction =>
    rw [hread, Reading.outcome] at h
    cases hperform : (instruction.perform i.catalogue.help i.calculator).2 with
    | error fault => rw [hperform] at h; cases h
    | ok reply =>
      rw [hperform] at h
      cases h
      exact Instruction.isComplaint_of_perform hperform i.catalogue.isComplaint_help

end DeskCalculator
