import DeskCalculator.Json.Reader
import DeskCalculator.Proofs.Numerals

/-!
# DeskCalculator.Proofs.JsonSyntax — the texts of a value

A value has many texts: white space stands wherever two tokens meet, and a string has its characters
as they are or behind a backslash, or as UTF-16 units.  `Value.Spells` is this grammar, as a
relation between values and texts.

* `Reads`: what is said of each reader, that it takes a text for a value whatever follows the text.
  White space behind the value may be left over, since it is skipped by whatever reads on.
* `Value.parse?_of_spells`: a value is read from each of its texts.
-/

namespace DeskCalculator.Json

open Numeral (Ends)

/-! ## White space -/

/-- A text of nothing but white space. -/
def Blank (cs : List Char) : Prop := ∀ c ∈ cs, isSpace c = true

instance (cs : List Char) : Decidable (Blank cs) := List.decidableBAll (isSpace · = true) cs

section

variable {space cs rest : List Char} {c : Char}

theorem blank_nil : Blank [] := nofun

theorem skipSpace_cons (h : isSpace c = false) (cs : List Char) :
    skipSpace (c :: cs) = c :: cs := by
  simp [skipSpace, h]

theorem skipSpace_append (h : Blank space) (cs : List Char) :
    skipSpace (space ++ cs) = skipSpace cs :=
  List.dropWhile_append_of_pos h

/-- White space does not go on with a number. -/
theorem ends_append (h : Blank space) (hrest : Ends rest) : Ends (space ++ rest) := by
  cases space with
  | nil => exact hrest
  | cons c space =>
    have hc : ((c = ' ' ∨ c = '\t') ∨ c = '\n') ∨ c = '\r' := by
      simpa [isSpace] using h c List.mem_cons_self
    rw [List.cons_append]
    rcases hc with ((rfl | rfl) | rfl) | rfl
    · exact Numeral.ends_cons (by decide) _
    · exact Numeral.ends_cons (by decide) _
    · exact Numeral.ends_cons (by decide) _
    · exact Numeral.ends_cons (by decide) _

/-- Behind white space, a text goes on with the character. -/
def OpensWith (c : Char) (cs : List Char) : Prop := ∃ more, skipSpace cs = c :: more

theorem OpensWith.of_cons (h : isSpace c = false) (cs : List Char) : OpensWith c (c :: cs) :=
  ⟨cs, skipSpace_cons h cs⟩

theorem OpensWith.padded (h : OpensWith c cs) (hspace : Blank space) :
    OpensWith c (space ++ cs) := by
  obtain ⟨more, hmore⟩ := h
  exact ⟨more, (skipSpace_append hspace cs).trans hmore⟩

theorem OpensWith.append (h : OpensWith c cs) (rest : List Char) : OpensWith c (cs ++ rest) := by
  obtain ⟨more, hmore⟩ := h
  refine ⟨more ++ rest, ?_⟩
  unfold skipSpace at hmore ⊢
  rw [List.dropWhile_append, hmore]
  rfl

theorem OpensWith.ne_nil (h : OpensWith c cs) : cs ≠ [] := by
  rintro rfl
  obtain ⟨more, hmore⟩ := h
  cases hmore

end

/-! ## Strings -/

/-- The texts of the pieces of a string. -/
inductive SpellsPieces : List Piece → List Char → Prop
  | nil : SpellsPieces [] []
  | char {c : Char} {pieces : List Piece} {cs : List Char} (not_quote : c ≠ '"')
      (not_backslash : c ≠ '\\') (not_control : 32 ≤ c.toNat) (more : SpellsPieces pieces cs) :
      SpellsPieces (.char c :: pieces) (c :: cs)
  | escape {c d : Char} {pieces : List Piece} {cs : List Char} (escaped : unescape? d = some c)
      (more : SpellsPieces pieces cs) : SpellsPieces (.char c :: pieces) ('\\' :: d :: cs)
  | unit {a b c d : Char} {n : Nat} {pieces : List Piece} {cs : List Char}
      (digits : unitOf? a b c d = some n) (more : SpellsPieces pieces cs) :
      SpellsPieces (.unit n :: pieces) ('\\' :: 'u' :: a :: b :: c :: d :: cs)

/-- The texts of a string; one of them may have half of a surrogate pair in it. -/
inductive SpellsString : Option String → List Char → Prop
  | quoted {pieces : List Piece} {cs : List Char} (spelled : SpellsPieces pieces cs) :
      SpellsString ((textOf? pieces).map .ofList) ('"' :: (cs ++ ['"']))

theorem scanPieces_of_spells {pieces : List Piece} {cs : List Char} (h : SpellsPieces pieces cs)
    (rest : List Char) : scanPieces (cs ++ '"' :: rest) = some (pieces, rest) := by
  induction h with
  | nil => rfl
  | char hquote hbackslash hcontrol _ ih =>
    rw [List.cons_append, scanPieces, if_neg (Nat.not_lt.mpr hcontrol), ih]
    · rfl
    · exact hquote
    · intro _ _ _ _ _ h
      exact absurd h hbackslash
    · intro _ _ h
      exact absurd h hbackslash
  | escape hescaped _ ih =>
    rw [List.cons_append, List.cons_append, scanPieces, hescaped, ih]
    · rfl
    · rintro _ _ _ _ _ rfl
      cases hescaped
  | unit hdigits _ ih =>
    simp only [List.cons_append]
    rw [scanPieces, hdigits, ih]
    rfl

theorem scanString_of_spells {text : Option String} {cs : List Char} (h : SpellsString text cs)
    (rest : List Char) :
    ∃ behind, cs ++ rest = '"' :: behind ∧ scanString behind = some (text, rest) := by
  cases h with
  | @quoted pieces cs hpieces =>
    refine ⟨cs ++ '"' :: rest, by simp, ?_⟩
    unfold scanString
    rw [scanPieces_of_spells hpieces]
    rfl

/-! ## Readers -/

/-- The reader takes the text for the value, whatever follows, if only a number cannot go on with
it.  Of what follows, it leaves everything, and maybe more white space before it. -/
def Reads {α : Type} (reader : List Char → Option (α × List Char)) (a : α) (cs : List Char) :
    Prop :=
  ∀ rest, Ends rest →
    ∃ left, reader (cs ++ rest) = some (a, left) ∧ skipSpace left = skipSpace rest

/-- Texts with commas between them. -/
def separated (texts : List (List Char)) : List Char := [','].intercalate texts

theorem separated_cons_cons (t u : List Char) (texts : List (List Char)) :
    separated (t :: u :: texts) = t ++ ',' :: separated (u :: texts) := by
  simp [separated]

theorem length_le_separated {texts : List (List Char)} (h : ∀ t ∈ texts, t ≠ []) :
    texts.length ≤ (separated texts).length := by
  induction texts with
  | nil => exact Nat.zero_le _
  | cons t texts ih =>
    have ht := List.length_pos_iff.mpr (h t List.mem_cons_self)
    have htexts := ih fun u hu => h u (List.mem_cons_of_mem _ hu)
    cases texts with
    | nil => simpa [separated] using Nat.succ_le_of_lt ht
    | cons u texts =>
      rw [separated_cons_cons]
      simp only [List.length_append, List.length_cons] at htexts ⊢
      omega

theorem length_le_of_mem {t : List Char} {texts : List (List Char)} (h : t ∈ texts) :
    t.length ≤ (separated texts).length := by
  induction texts with
  | nil => cases h
  | cons u texts ih =>
    cases texts with
    | nil =>
      obtain rfl := List.mem_singleton.mp h
      simp [separated]
    | cons u' texts =>
      rw [separated_cons_cons, List.length_append, List.length_cons]
      rcases List.mem_cons.mp h with rfl | h
      · omega
      · have hlength := ih h
        omega

section

variable {α : Type} {reader : List Char → Option (α × List Char)} {close : Char}
  {items : List (α × List Char)} (hclose : close = ']' ∨ close = '\x7d')
include hclose

theorem skipSpace_close (rest : List Char) : skipSpace (close :: rest) = close :: rest := by
  rcases hclose with rfl | rfl
  · exact skipSpace_cons (by decide) _
  · exact skipSpace_cons (by decide) _

theorem ends_close (rest : List Char) : Ends (close :: rest) := by
  rcases hclose with rfl | rfl
  · exact Numeral.ends_cons (by decide) _
  · exact Numeral.ends_cons (by decide) _

/-- A reader that takes each text for its item takes the texts for the items. -/
theorem scanItems_separated (h : ∀ i ∈ items, Reads reader i.1 i.2) (hne : items ≠ []) {fuel : Nat}
    (hfuel : items.length ≤ fuel) (rest : List Char) :
    scanItems reader close fuel (separated (items.map Prod.snd) ++ close :: rest) =
      some (items.map Prod.fst, rest) := by
  induction items generalizing fuel with
  | nil => exact absurd rfl hne
  | cons i items ih =>
    obtain ⟨fuel, rfl⟩ := Nat.exists_eq_add_one_of_ne_zero (Nat.ne_zero_of_lt hfuel)
    have hi := h i List.mem_cons_self
    cases items with
    | nil =>
      obtain ⟨left, hread, hleft⟩ := hi (close :: rest) (ends_close hclose rest)
      rw [skipSpace_close hclose] at hleft
      have hseparated : separated ([i].map Prod.snd) = i.2 := by simp [separated]
      rw [hseparated, scanItems, hread]
      simp only [Option.bind_eq_bind, Option.bind_some, hleft]
      rcases hclose with rfl | rfl
      · rfl
      · rfl
    | cons j items =>
      obtain ⟨left, hread, hleft⟩ :=
        hi (',' :: (separated ((j :: items).map Prod.snd) ++ close :: rest))
          (Numeral.ends_cons (by decide) _)
      rw [skipSpace_cons (by decide)] at hleft
      have hmore := ih (fun x hx => h x (List.mem_cons_of_mem _ hx)) (by simp)
        (Nat.le_of_succ_le_succ hfuel)
      rw [List.map_cons, List.map_cons, separated_cons_cons, List.append_assoc, List.cons_append,
        ← List.map_cons, scanItems, hread]
      simp only [Option.bind_eq_bind, Option.bind_some, hleft, hmore]
      rfl

theorem scanList_blank {space : List Char} (h : Blank space) (rest : List Char) :
    scanList reader close (space ++ close :: rest) = some ([], rest) := by
  rw [scanList, skipSpace_append h, skipSpace_close hclose]
  exact if_pos rfl

theorem scanList_separated (h : ∀ i ∈ items, Reads reader i.1 i.2)
    (hopens : ∀ i ∈ items, ∃ c, OpensWith c i.2 ∧ c ≠ close) (rest : List Char) :
    scanList reader close (separated (items.map Prod.snd) ++ close :: rest) =
      some (items.map Prod.fst, rest) := by
  cases items with
  | nil => exact scanList_blank hclose blank_nil rest
  | cons i items =>
    have hne : ∀ t ∈ (i :: items).map Prod.snd, t ≠ [] := by
      intro t ht
      obtain ⟨j, hj, rfl⟩ := List.mem_map.mp ht
      obtain ⟨c, hc, -⟩ := hopens j hj
      exact hc.ne_nil
    have hfuel : (i :: items).length ≤
        (separated ((i :: items).map Prod.snd) ++ close :: rest).length := by
      have hlength := length_le_separated hne
      simp only [List.length_map, List.length_append] at hlength ⊢
      omega
    have hread := scanItems_separated hclose h (by simp) hfuel rest
    obtain ⟨c, hc, hother⟩ := hopens i List.mem_cons_self
    obtain ⟨behind, hbehind⟩ : ∃ behind,
        separated ((i :: items).map Prod.snd) ++ close :: rest = i.2 ++ behind := by
      cases items with
      | nil => exact ⟨close :: rest, by simp [separated]⟩
      | cons j items =>
        rw [List.map_cons, List.map_cons, separated_cons_cons, List.append_assoc]
        exact ⟨_, rfl⟩
    obtain ⟨more, hmore⟩ := hc.append behind
    rw [hbehind] at hread ⊢
    rw [scanList, hmore]
    exact (if_neg hother).trans hread

end

/-! ## Values -/

/-- A member of an object, with the text of its name and that of its value. -/
structure Member where
  name : Option String
  value : Value
  nameText : List Char
  valueText : List Char

/-- What a member is read as. -/
def Member.pair (m : Member) : Option String × Value := (m.name, m.value)

/-- The text of a member. -/
def Member.chars (m : Member) : List Char := m.nameText ++ ':' :: m.valueText

/-- The texts of a name, with white space around it. -/
inductive SpellsName : Option String → List Char → Prop
  | padded {name : Option String} {before cs after : List Char} (blank_before : Blank before)
      (blank_after : Blank after) (spelled : SpellsString name cs) :
      SpellsName name (before ++ cs ++ after)

theorem SpellsName.opens {name : Option String} {cs : List Char} (h : SpellsName name cs) :
    OpensWith '"' cs := by
  cases h with
  | padded hbefore _ hstring =>
    cases hstring
    exact ((OpensWith.of_cons (by decide) _).padded hbefore).append _

namespace Value

/-- **The texts of a value**, with white space around it. -/
inductive Spells : Value → List Char → Prop
  | null : Spells .null "null".toList
  | bool (b : Bool) : Spells (.bool b) (if b then "true" else "false").toList
  | number {n : Numeral} (wellFormed : n.WellFormed) (form : isNumber n = true) :
      Spells (.number n) n.chars
  | string {text : Option String} {cs : List Char} (spelled : SpellsString text cs) :
      Spells (.string text) cs
  | emptyArray {space : List Char} (blank : Blank space) :
      Spells (.array []) ('[' :: (space ++ [']']))
  | array {items : List (Value × List Char)} (spelled : ∀ i ∈ items, Spells i.1 i.2) :
      Spells (.array (items.map Prod.fst)) ('[' :: (separated (items.map Prod.snd) ++ [']']))
  | emptyObject {space : List Char} (blank : Blank space) :
      Spells (.object []) ('\x7b' :: (space ++ ['\x7d']))
  | object {members : List Member} (names : ∀ m ∈ members, SpellsName m.name m.nameText)
      (values : ∀ m ∈ members, Spells m.value m.valueText) :
      Spells (.object (members.map Member.pair))
        ('\x7b' :: (separated (members.map Member.chars) ++ ['\x7d']))
  | padded {v : Value} {before cs after : List Char} (blank_before : Blank before)
      (blank_after : Blank after) (spelled : Spells v cs) : Spells v (before ++ cs ++ after)

/-- The characters that a number may begin with. -/
def OpensNumber (c : Char) : Prop := c = '-' ∨ c.isDigit

theorem OpensNumber.ne {c d : Char} (h : OpensNumber c) (hminus : d ≠ '-')
    (hdigit : d.isDigit = false) : c ≠ d := by
  rintro rfl
  rcases h with h | h
  · exact hminus h
  · exact absurd h (by simp [hdigit])

theorem OpensNumber.not_space {c : Char} (h : OpensNumber c) : isSpace c = false := by
  have h₁ := h.ne (d := ' ') (by decide) rfl
  have h₂ := h.ne (d := '\t') (by decide) rfl
  have h₃ := h.ne (d := '\n') (by decide) rfl
  have h₄ := h.ne (d := '\r') (by decide) rfl
  simp [isSpace, h₁, h₂, h₃, h₄]

theorem isNumber_opens {n : Numeral} (hn : n.WellFormed) (hform : isNumber n = true) :
    ∃ c cs, n.chars = c :: cs ∧ OpensNumber c := by
  obtain ⟨sign, magnitude⟩ := n
  cases magnitude with
  | infinity => cases sign with
    | none => cases hform
    | some s => cases s <;> cases hform
  | decimal whole fraction exponent =>
    obtain ⟨hwhole, -⟩ := hn
    cases whole with
    | nil => cases sign with
      | none => cases hform
      | some s => cases s <;> cases hform
    | cons c whole =>
      cases sign with
      | none => exact ⟨c, _, rfl, .inr (hwhole c List.mem_cons_self)⟩
      | some s =>
        cases s with
        | positive => cases hform
        | negative => exact ⟨'-', _, rfl, .inl rfl⟩

/-- No value begins with a closing bracket. -/
theorem Spells.opens {v : Value} {cs : List Char} (h : Spells v cs) :
    ∃ c, OpensWith c cs ∧ c ≠ ']' := by
  induction h with
  | null => exact ⟨'n', .of_cons (by decide) _, by decide⟩
  | bool b =>
    cases b
    · exact ⟨'f', .of_cons (by decide) _, by decide⟩
    · exact ⟨'t', .of_cons (by decide) _, by decide⟩
  | number hn hform =>
    obtain ⟨c, cs, hchars, hc⟩ := isNumber_opens hn hform
    rw [hchars]
    exact ⟨c, .of_cons hc.not_space cs, hc.ne (by decide) rfl⟩
  | string h =>
    cases h
    exact ⟨'"', .of_cons (by decide) _, by decide⟩
  | emptyArray => exact ⟨'[', .of_cons (by decide) _, by decide⟩
  | array => exact ⟨'[', .of_cons (by decide) _, by decide⟩
  | emptyObject => exact ⟨'\x7b', .of_cons (by decide) _, by decide⟩
  | object => exact ⟨'\x7b', .of_cons (by decide) _, by decide⟩
  | padded hbefore _ _ ih =>
    obtain ⟨c, hc, hother⟩ := ih
    exact ⟨c, (hc.padded hbefore).append _, hother⟩

theorem scanValue_number {n : Numeral} (hn : n.WellFormed) (hform : isNumber n = true) (fuel : Nat)
    {rest : List Char} (hrest : Ends rest) :
    scanValue (fuel + 1) (n.chars ++ rest) = some (.number n, rest) := by
  have hnumber : scanNumber (n.chars ++ rest) = some (.number n, rest) := by
    unfold scanNumber
    rw [Numeral.scan_written hn hrest]
    exact if_pos hform
  obtain ⟨c, cs, hchars, hc⟩ := isNumber_opens hn hform
  rw [hchars, List.cons_append] at hnumber ⊢
  rw [scanValue, skipSpace_cons hc.not_space]
  -- a number begins like no other value
  split
  · next h => exact absurd (List.cons.inj h).1 (hc.ne (by decide) rfl)
  · next h => exact absurd (List.cons.inj h).1 (hc.ne (by decide) rfl)
  · next h => exact absurd (List.cons.inj h).1 (hc.ne (by decide) rfl)
  · next h => exact absurd (List.cons.inj h).1 (hc.ne (by decide) rfl)
  · next h => exact absurd (List.cons.inj h).1 (hc.ne (by decide) rfl)
  · next h => exact absurd (List.cons.inj h).1 (hc.ne (by decide) rfl)
  · exact hnumber

theorem scanValue_padded {space : List Char} (h : Blank space) (fuel : Nat) (cs : List Char) :
    scanValue fuel (space ++ cs) = scanValue fuel cs := by
  cases fuel with
  | zero => rfl
  | succ fuel => rw [scanValue, scanValue, skipSpace_append h]

theorem scanMember_reads {reader : List Char → Option (Value × List Char)} {name : Option String}
    {v : Value} {nameText valueText : List Char} (hname : SpellsName name nameText)
    (hvalue : Reads reader v valueText) :
    Reads (scanMember reader) (name, v) (nameText ++ ':' :: valueText) := by
  intro rest hrest
  obtain ⟨left, hread, hleft⟩ := hvalue rest hrest
  cases hname with
  | @padded before cs after hbefore hafter hstring =>
    obtain ⟨behind, hbehind, hscan⟩ :=
      scanString_of_spells hstring (after ++ ':' :: (valueText ++ rest))
    have htext : before ++ cs ++ after ++ ':' :: valueText ++ rest = before ++ '"' :: behind := by
      rw [← hbehind]
      simp
    refine ⟨left, ?_, hleft⟩
    rw [htext, scanMember, skipSpace_append hbefore, skipSpace_cons (by decide)]
    simp [strip?, hscan, skipSpace_append hafter, skipSpace_cons (c := ':') (by decide), hread]

/-- **A value is read from each of its texts**, which may be followed by more text.  The induction
is on the way in which the text spells the value; the fuel becomes one less at each bracket, and the
text shorter by two. -/
theorem scanValue_reads {v : Value} {cs : List Char} (h : Spells v cs) {fuel : Nat}
    (hfuel : cs.length ≤ fuel) : Reads (scanValue (fuel + 1)) v cs := by
  induction h generalizing fuel with
  | null => exact fun rest _ => ⟨rest, rfl, rfl⟩
  | bool b => cases b <;> exact fun rest _ => ⟨rest, rfl, rfl⟩
  | number hn hform => exact fun rest hrest => ⟨rest, scanValue_number hn hform fuel hrest, rfl⟩
  | string h =>
    intro rest _
    obtain ⟨behind, hquote, hstring⟩ := scanString_of_spells h rest
    refine ⟨rest, ?_, rfl⟩
    rw [hquote, scanValue, skipSpace_cons (by decide)]
    simp [hstring]
  | emptyArray hblank =>
    intro rest _
    have hlist : scanList (scanValue fuel) ']' (_ ++ ']' :: rest) = some ([], rest) :=
      scanList_blank (.inl rfl) hblank rest
    refine ⟨rest, ?_, rfl⟩
    rw [scanValue, List.cons_append, List.append_assoc, skipSpace_cons (by decide)]
    simp [hlist]
  | @array items hitems ih =>
    intro rest _
    have hreads : ∀ i ∈ items, Reads (scanValue fuel) i.1 i.2 := by
      intro i hi
      have hlength := length_le_of_mem (List.mem_map_of_mem (f := Prod.snd) hi)
      simp only [List.length_cons, List.length_append] at hfuel
      obtain ⟨less, rfl⟩ := Nat.exists_eq_add_one_of_ne_zero (show fuel ≠ 0 by omega)
      exact ih i hi (by omega)
    have hlist := scanList_separated (.inl rfl) hreads (fun i hi => (hitems i hi).opens) rest
    refine ⟨rest, ?_, rfl⟩
    rw [scanValue, List.cons_append, List.append_assoc, skipSpace_cons (by decide)]
    simp [hlist]
  | emptyObject hblank =>
    intro rest _
    have hlist : scanList (scanMember (scanValue fuel)) '\x7d' (_ ++ '\x7d' :: rest) =
        some ([], rest) := scanList_blank (.inr rfl) hblank rest
    refine ⟨rest, ?_, rfl⟩
    rw [scanValue, List.cons_append, List.append_assoc, skipSpace_cons (by decide)]
    simp [hlist]
  | @object members hnames hvalues ih =>
    intro rest _
    let items : List ((Option String × Value) × List Char) :=
      members.map fun m => (m.pair, m.chars)
    have hreads : ∀ i ∈ items, Reads (scanMember (scanValue fuel)) i.1 i.2 := by
      intro i hi
      obtain ⟨m, hm, rfl⟩ := List.mem_map.mp hi
      have hlength := length_le_of_mem (List.mem_map_of_mem (f := Member.chars) hm)
      simp only [List.length_cons, List.length_append] at hfuel
      simp only [Member.chars, List.length_cons, List.length_append] at hlength
      obtain ⟨less, rfl⟩ := Nat.exists_eq_add_one_of_ne_zero (show fuel ≠ 0 by omega)
      exact scanMember_reads (hnames m hm) (ih m hm (by omega))
    have hopens : ∀ i ∈ items, ∃ c, OpensWith c i.2 ∧ c ≠ '\x7d' := by
      intro i hi
      obtain ⟨m, hm, rfl⟩ := List.mem_map.mp hi
      exact ⟨'"', (hnames m hm).opens.append _, by decide⟩
    have hlist := scanList_separated (.inr rfl) hreads hopens rest
    have hpairs : items.map Prod.fst = members.map Member.pair := by
      simp [items, Function.comp_def]
    have htexts : items.map Prod.snd = members.map Member.chars := by
      simp [items, Function.comp_def]
    rw [hpairs, htexts] at hlist
    refine ⟨rest, ?_, rfl⟩
    rw [scanValue, List.cons_append, List.append_assoc, skipSpace_cons (by decide)]
    simp [hlist]
  | @padded v before cs after hbefore hafter _ ih =>
    intro rest hrest
    simp only [List.length_append] at hfuel
    have hless : cs.length ≤ fuel := by omega
    obtain ⟨left, hread, hleft⟩ := ih hless (after ++ rest) (ends_append hafter hrest)
    refine ⟨left, ?_, hleft.trans (skipSpace_append hafter rest)⟩
    rw [List.append_assoc, List.append_assoc, scanValue_padded hbefore]
    exact hread

/-- **A value is read from each of its texts**, and nothing is left over. -/
theorem parse?_of_spells {v : Value} {text : String} (h : Spells v text.toList) :
    parse? text = some v := by
  obtain ⟨left, hread, hleft⟩ := scanValue_reads h (Nat.le_refl _) [] Numeral.ends_nil
  rw [List.append_nil] at hread
  unfold parse?
  dsimp only
  rw [hread]
  simp only [Option.bind_eq_bind, Option.bind_some, hleft]
  rfl

/-- No text is one of two values. -/
theorem Spells.unique {v w : Value} {cs : List Char} (hv : Spells v cs) (hw : Spells w cs) :
    v = w := by
  have hread : parse? (.ofList cs) = some v := parse?_of_spells (by rwa [String.toList_ofList])
  have hread' : parse? (.ofList cs) = some w := parse?_of_spells (by rwa [String.toList_ofList])
  exact Option.some.inj (hread.symm.trans hread')

end Value

end DeskCalculator.Json
