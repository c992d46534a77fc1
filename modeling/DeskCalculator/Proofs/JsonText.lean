import DeskCalculator.Proofs.JsonSyntax

/-!
# DeskCalculator.Proofs.JsonText — values are read back from their texts

A string is written with escapes, which are single UTF-16 units at most, and never of a surrogate,
so what is written spells the string.  What is written for a value is then one of its texts.

* `Value.parse?_render`: a value is read back from its text.
-/

namespace DeskCalculator.Json

/-! ## Strings -/

/-- What a character of a text is read as, once it is written in a string. -/
def piece (c : Char) : Piece :=
  if c.toNat < 32 ∧ c ∉ ['\n', '\r', '\t', '\x08', '\x0c'] then .unit c.toNat else .char c

/-- The hexadecimal digits of a control character give it back. -/
theorem unitOf?_control :
    ∀ n < 32, unitOf? '0' '0' (hexDigit (n / 16)) (hexDigit n) = some n := by
  decide

theorem eq_of_toNat_eq {c d : Char} (h : c.toNat = d.toNat) : c = d :=
  Char.ext (UInt32.toNat_inj.mp h)

theorem SpellsPieces.written (c : Char) {pieces : List Piece} {cs : List Char}
    (h : SpellsPieces pieces cs) : SpellsPieces (piece c :: pieces) (Json.escape c ++ cs) := by
  unfold Json.escape
  split
  · exact .escape rfl h
  · exact .escape rfl h
  · exact .escape rfl h
  · exact .escape rfl h
  · exact .escape rfl h
  · next hquote hbackslash hn hr ht =>
    split
    · next hb =>
      obtain rfl : c = '\x08' := eq_of_toNat_eq hb
      exact .escape rfl h
    · next hb =>
      split
      · next hf =>
        obtain rfl : c = '\x0c' := eq_of_toNat_eq hf
        exact .escape rfl h
      · next hf =>
        split
        · next hcontrol =>
          have hpiece : piece c = .unit c.toNat := by
            refine if_pos ⟨hcontrol, ?_⟩
            simp only [List.mem_cons, List.not_mem_nil, or_false, not_or]
            exact ⟨hn, hr, ht, fun h => hb (h ▸ rfl), fun h => hf (h ▸ rfl)⟩
          rw [hpiece]
          exact .unit (unitOf?_control _ hcontrol) h
        · next hcontrol =>
          have hpiece : piece c = .char c := if_neg fun h => hcontrol h.1
          rw [hpiece]
          exact .char hquote hbackslash (Nat.not_lt.mp hcontrol) h

theorem spellsPieces_written (cs : List Char) :
    SpellsPieces (cs.map piece) (cs.flatMap escape) := by
  induction cs with
  | nil => exact .nil
  | cons c cs ih =>
    rw [List.map_cons, List.flatMap_cons]
    exact ih.written c

/-- A control character is no half of a surrogate pair. -/
theorem textOf?_piece (c : Char) (pieces : List Piece) :
    textOf? (piece c :: pieces) = (textOf? pieces).map (c :: ·) := by
  unfold piece
  split
  · next hc =>
    have hlow : isLowSurrogate c.toNat = false := decide_eq_false (by omega)
    have hhigh : isHighSurrogate c.toNat = false := decide_eq_false (by omega)
    rw [textOf?.eq_def]
    simp [hlow, hhigh]
  · rfl

theorem textOf?_pieces (cs : List Char) : textOf? (cs.map piece) = some cs := by
  induction cs with
  | nil => rfl
  | cons c cs ih => rw [List.map_cons, textOf?_piece, ih, Option.map_some]

/-- **What is written for a text spells it.** -/
theorem spellsString_quote (text : String) : SpellsString (some text) (quote text.toList) := by
  have h := SpellsString.quoted (spellsPieces_written text.toList)
  rw [textOf?_pieces, Option.map_some, String.ofList_toList] at h
  exact h

/-! ## Values -/

namespace Value

/-- The values that are written as they are: their numbers have the form of numbers in JSON, and
their strings have texts. -/
inductive Writable : Value → Prop
  | null : Writable .null
  | bool (b : Bool) : Writable (.bool b)
  | number {n : Numeral} (wellFormed : n.WellFormed) (form : isNumber n = true) :
      Writable (.number n)
  | string (text : String) : Writable (.ofText text)
  | array {items : List Value} (items_writable : ∀ v ∈ items, Writable v) : Writable (.array items)
  | record {members : List (String × Value)} (members_writable : ∀ m ∈ members, Writable m.2) :
      Writable (.record members)

/-- A member of an object, as it is written. -/
def writtenMember (m : Option String × Value) : Member := ⟨m.1, m.2, stringChars m.1, m.2.chars⟩

theorem itemChars_eq (items : List Value) : itemChars items = separated (items.map chars) := by
  induction items with
  | nil => simp [itemChars, separated]
  | cons v items ih =>
    cases items with
    | nil => simp [itemChars, separated]
    | cons w items => simp only [itemChars, ih, List.map_cons, separated_cons_cons]

theorem memberChars_eq (members : List (Option String × Value)) :
    memberChars members = separated ((members.map writtenMember).map Member.chars) := by
  induction members with
  | nil => simp [memberChars, separated]
  | cons m members ih =>
    cases members with
    | nil => simp [memberChars, separated, writtenMember, Member.chars]
    | cons m' members =>
      simp only [memberChars, ih, List.map_cons, separated_cons_cons, writtenMember, Member.chars]

/-- The members of a record. -/
def named (members : List (String × Value)) : List (Option String × Value) :=
  members.map fun (name, v) => (some name, v)

theorem spellsName_written (name : String) : SpellsName (some name) (stringChars (some name)) := by
  have h := SpellsName.padded blank_nil blank_nil (spellsString_quote name)
  rw [List.nil_append, List.append_nil] at h
  exact h

/-- **What is written for a value is one of its texts.** -/
theorem Writable.spells {v : Value} (h : v.Writable) : Spells v v.chars := by
  induction h with
  | null => exact .null
  | bool b => exact .bool b
  | number hn hform => exact .number hn hform
  | string text => exact .string (spellsString_quote text)
  | @array items h ih =>
    have hitems : ∀ i ∈ items.map fun v => (v, v.chars), Spells i.1 i.2 := by
      intro i hi
      obtain ⟨v, hv, rfl⟩ := List.mem_map.mp hi
      exact ih v hv
    have harray := Spells.array hitems
    simp only [List.map_map, Function.comp_def, List.map_id'] at harray
    rw [chars, itemChars_eq]
    exact harray
  | @record members h ih =>
    have hnames : ∀ m ∈ (named members).map writtenMember, SpellsName m.name m.nameText := by
      simp only [named, List.forall_mem_map]
      intro m hm
      exact spellsName_written m.1
    have hvalues : ∀ m ∈ (named members).map writtenMember, Spells m.value m.valueText := by
      simp only [named, List.forall_mem_map]
      exact ih
    have hobject := Spells.object hnames hvalues
    have hpairs : ((named members).map writtenMember).map Member.pair = named members := by
      simp [Function.comp_def, writtenMember, Member.pair]
    rw [hpairs, ← memberChars_eq] at hobject
    exact hobject

/-- **A value is read back from its text**, and nothing is left over. -/
theorem parse?_render {v : Value} (h : v.Writable) : parse? v.render = some v := by
  refine parse?_of_spells ?_
  rw [render, String.toList_ofList]
  exact h.spells

end Value

end DeskCalculator.Json
