import Mathlib.Data.List.TakeWhile
import DeskCalculator.Proofs.JsonSyntax

/-!
# DeskCalculator.Proofs.JsonExactness — only the texts of a value are read as the value

What a reader takes is one of the texts of the value that it gives, and what it leaves is the rest
of what it was given.  With the other direction, the texts that are read are exactly those that the
grammar has.

* `Takes`: what is said of each reader.
* `Value.parse?_eq_some_iff`: which texts are read as a value.
-/

namespace DeskCalculator.Json

/-- The reader takes only texts that spell what it gives, and leaves the rest. -/
def Takes {α : Type} (reader : List Char → Option (α × List Char))
    (spells : α → List Char → Prop) : Prop :=
  ∀ cs a left, reader cs = some (a, left) → ∃ text, spells a text ∧ cs = text ++ left

/-- The white space that is skipped. -/
theorem exists_blank (cs : List Char) : ∃ space, Blank space ∧ cs = space ++ skipSpace cs := by
  refine ⟨cs.takeWhile isSpace, ?_, List.takeWhile_append_dropWhile.symm⟩
  intro c hc
  exact List.mem_takeWhile_imp hc

theorem strip?_eq_some {start cs rest : List Char} (h : strip? start cs = some rest) :
    cs = start ++ rest := by
  unfold strip? at h
  split at h
  · next hstart =>
    obtain ⟨behind, rfl⟩ := List.isPrefixOf_iff_prefix.mp hstart
    simpa using h
  · cases h

/-- A word that stands for a value is taken as it is. -/
theorem word_eq_some {word rest left : List Char} {v w : Value}
    (h : (strip? word rest).map (w, ·) = some (v, left)) : v = w ∧ rest = word ++ left := by
  obtain ⟨left', hstrip, heq⟩ := Option.map_eq_some_iff.mp h
  cases heq
  exact ⟨rfl, strip?_eq_some hstrip⟩

/-! ## Strings -/

theorem scanPieces_eq_some {cs left : List Char} {pieces : List Piece}
    (h : scanPieces cs = some (pieces, left)) :
    ∃ text, SpellsPieces pieces text ∧ cs = text ++ '"' :: left := by
  fun_induction scanPieces cs generalizing pieces with
  | case1 rest =>
    cases h
    exact ⟨[], .nil, rfl⟩
  | case2 a b c d rest ih =>
    simp only [Option.bind_eq_bind, Option.bind_eq_some_iff, Option.pure_def] at h
    obtain ⟨n, hn, ⟨more, left'⟩, hmore, heq⟩ := h
    cases heq
    obtain ⟨text, htext, rfl⟩ := ih hmore
    exact ⟨_, .unit hn htext, rfl⟩
  | case3 c rest hu ih =>
    simp only [Option.bind_eq_bind, Option.bind_eq_some_iff, Option.pure_def] at h
    obtain ⟨d, hd, ⟨more, left'⟩, hmore, heq⟩ := h
    cases heq
    obtain ⟨text, htext, rfl⟩ := ih hmore
    exact ⟨_, .escape hd htext, rfl⟩
  | case4 => cases h
  | case5 c rest hquote hu hbackslash hcontrol ih =>
    simp only [Option.bind_eq_bind, Option.bind_eq_some_iff, Option.pure_def] at h
    obtain ⟨⟨more, left'⟩, hmore, heq⟩ := h
    cases heq
    have hother : c ≠ '\\' := by
      rintro rfl
      cases rest with
      | nil => cases hmore
      | cons d rest => exact hbackslash d rest rfl rfl
    obtain ⟨text, htext, rfl⟩ := ih hmore
    exact ⟨_, .char hquote hother (Nat.not_lt.mp hcontrol) htext, rfl⟩
  | case6 => cases h

theorem scanString_eq_some {cs left : List Char} {name : Option String}
    (h : scanString cs = some (name, left)) :
    ∃ text, SpellsString name text ∧ '"' :: cs = text ++ left := by
  unfold scanString at h
  simp only [Option.bind_eq_bind, Option.bind_eq_some_iff, Option.pure_def] at h
  obtain ⟨⟨pieces, left'⟩, hpieces, heq⟩ := h
  cases heq
  obtain ⟨text, htext, rfl⟩ := scanPieces_eq_some hpieces
  exact ⟨_, .quoted htext, by simp⟩

/-! ## Lists of items -/

section

variable {α : Type} {reader : List Char → Option (α × List Char)} {spells : α → List Char → Prop}
  {close : Char} {cs left : List Char} {as : List α}

/-- Texts that spell items, of which there is one at least, with commas between them and a closing
bracket behind them. -/
def SpelledItems (spells : α → List Char → Prop) (close : Char) (as : List α)
    (cs left : List Char) : Prop :=
  ∃ i items, (∀ j ∈ i :: items, spells j.1 j.2) ∧ as = (i :: items).map Prod.fst ∧
    cs = separated ((i :: items).map Prod.snd) ++ close :: left

variable (htakes : Takes reader spells)
  (hpadded : ∀ a text space, Blank space → spells a text → spells a (text ++ space))
include htakes hpadded

theorem scanItems_eq_some {fuel : Nat} (h : scanItems reader close fuel cs = some (as, left)) :
    SpelledItems spells close as cs left := by
  induction fuel generalizing cs as with
  | zero => cases h
  | succ fuel ih =>
    rw [scanItems] at h
    simp only [Option.bind_eq_bind, Option.bind_eq_some_iff] at h
    obtain ⟨⟨a, behind⟩, hread, hmore⟩ := h
    obtain ⟨text, htext, rfl⟩ := htakes _ _ _ hread
    -- the white space before the comma or the bracket is counted among the item
    obtain ⟨space, hspace, hbehind⟩ := exists_blank behind
    have hitem := hpadded a text space hspace htext
    dsimp only at hmore
    split at hmore
    · next rest hcomma =>
      obtain ⟨⟨more, left'⟩, hrest, heq⟩ := Option.bind_eq_some_iff.mp hmore
      cases heq
      obtain ⟨i, items, hitems, rfl, rfl⟩ := ih hrest
      refine ⟨(a, text ++ space), i :: items, List.forall_mem_cons.mpr ⟨hitem, hitems⟩, rfl, ?_⟩
      rw [hbehind, hcomma]
      simp [separated_cons_cons]
    · next c rest _ hclose =>
      split at hmore
      · next hc =>
        cases hmore
        subst hc
        refine ⟨(a, text ++ space), [], List.forall_mem_singleton.mpr hitem, rfl, ?_⟩
        rw [hbehind, hclose]
        simp [separated]
      · cases hmore
    · cases hmore

theorem scanList_eq_some (h : scanList reader close cs = some (as, left)) :
    (as = [] ∧ ∃ space, Blank space ∧ cs = space ++ close :: left) ∨
      SpelledItems spells close as cs left := by
  unfold scanList at h
  split at h
  · cases h
  · next c rest hskip =>
    split at h
    · next hc =>
      cases h
      subst hc
      obtain ⟨space, hspace, hcs⟩ := exists_blank cs
      rw [hskip] at hcs
      exact .inl ⟨rfl, space, hspace, hcs⟩
    · exact .inr (scanItems_eq_some htakes hpadded h)

end

/-! ## Values -/

namespace Value

/-- The texts of a member. -/
def SpellsMember (m : Option String × Value) (cs : List Char) : Prop :=
  ∃ nameText valueText, SpellsName m.1 nameText ∧ Spells m.2 valueText ∧
    cs = nameText ++ ':' :: valueText

theorem Spells.append_blank {v : Value} {text space : List Char} (hspace : Blank space)
    (h : Spells v text) : Spells v (text ++ space) := by
  simpa using Spells.padded blank_nil hspace h

theorem SpellsMember.append_blank {m : Option String × Value} {text space : List Char}
    (hspace : Blank space) (h : SpellsMember m text) : SpellsMember m (text ++ space) := by
  obtain ⟨nameText, valueText, hname, hvalue, rfl⟩ := h
  exact ⟨nameText, valueText ++ space, hname, hvalue.append_blank hspace, by simp⟩

theorem scanNumber_eq_some {cs left : List Char} {v : Value} (h : scanNumber cs = some (v, left)) :
    ∃ text, Spells v text ∧ cs = text ++ left := by
  unfold scanNumber at h
  simp only [Option.bind_eq_bind, Option.bind_eq_some_iff] at h
  obtain ⟨⟨n, behind⟩, hscan, hmore⟩ := h
  obtain ⟨hn, rfl⟩ := Numeral.scan_sound hscan
  dsimp only at hmore
  split at hmore
  · next hform =>
    cases hmore
    exact ⟨n.chars, .number hn hform, rfl⟩
  · cases hmore

theorem takes_scanMember {reader : List Char → Option (Value × List Char)}
    (htakes : Takes reader Spells) : Takes (scanMember reader) SpellsMember := by
  intro cs m left h
  unfold scanMember at h
  simp only [Option.bind_eq_bind, Option.bind_eq_some_iff, Option.pure_def] at h
  obtain ⟨rest, hquote, ⟨name, behind⟩, hname, rest', hcolon, ⟨v, left'⟩, hvalue, heq⟩ := h
  cases heq
  obtain ⟨before, hbefore, hcs⟩ := exists_blank cs
  obtain ⟨after, hafter, hbehind⟩ := exists_blank behind
  obtain ⟨nameText, hnameText, hrest⟩ := scanString_eq_some hname
  obtain ⟨valueText, hvalueText, rfl⟩ := htakes _ _ _ hvalue
  rw [strip?_eq_some hcolon] at hbehind
  rw [strip?_eq_some hquote, List.singleton_append, hrest, hbehind] at hcs
  refine ⟨before ++ nameText ++ after ++ ':' :: valueText, ?_, by simp [hcs]⟩
  exact ⟨_, valueText, .padded hbefore hafter hnameText, hvalueText, rfl⟩

/-- The members that some texts spell, with the texts of their parts. -/
theorem exists_members {items : List ((Option String × Value) × List Char)}
    (h : ∀ i ∈ items, SpellsMember i.1 i.2) :
    ∃ members : List Member, (∀ m ∈ members, SpellsName m.name m.nameText) ∧
      (∀ m ∈ members, Spells m.value m.valueText) ∧
      items.map Prod.fst = members.map Member.pair ∧
      items.map Prod.snd = members.map Member.chars := by
  induction items with
  | nil => exact ⟨[], nofun, nofun, rfl, rfl⟩
  | cons i items ih =>
    obtain ⟨hi, hitems⟩ := List.forall_mem_cons.mp h
    obtain ⟨members, hnames, hvalues, hpairs, hchars⟩ := ih hitems
    obtain ⟨⟨name, v⟩, text⟩ := i
    obtain ⟨nameText, valueText, hname, hvalue, rfl⟩ := hi
    refine ⟨⟨name, v, nameText, valueText⟩ :: members, List.forall_mem_cons.mpr ⟨hname, hnames⟩,
      List.forall_mem_cons.mpr ⟨hvalue, hvalues⟩, ?_, ?_⟩
    · rw [List.map_cons, List.map_cons, hpairs]
      rfl
    · rw [List.map_cons, List.map_cons, hchars]
      rfl

/-- **What is read as a value is one of its texts.**  The induction is on the fuel, which the reader
hands on at each bracket. -/
theorem takes_scanValue (fuel : Nat) : Takes (scanValue fuel) Spells := by
  induction fuel with
  | zero => exact nofun
  | succ fuel ih =>
    intro cs v left h
    obtain ⟨space, hspace, hcs⟩ := exists_blank cs
    have hpad {text : List Char} (htext : Spells v text) (hskip : skipSpace cs = text ++ left) :
        ∃ text, Spells v text ∧ cs = text ++ left := by
      refine ⟨space ++ text, ?_, ?_⟩
      · simpa using Spells.padded hspace blank_nil htext
      · rw [List.append_assoc, ← hskip]
        exact hcs
    rw [scanValue] at h
    split at h
    · next rest hskip =>
      obtain ⟨rfl, rfl⟩ := word_eq_some h
      exact hpad .null hskip
    · next rest hskip =>
      obtain ⟨rfl, rfl⟩ := word_eq_some h
      exact hpad (.bool true) hskip
    · next rest hskip =>
      obtain ⟨rfl, rfl⟩ := word_eq_some h
      exact hpad (.bool false) hskip
    · next rest hskip =>
      obtain ⟨⟨text, left'⟩, hstring, heq⟩ := Option.map_eq_some_iff.mp h
      cases heq
      obtain ⟨chars, hchars, hrest⟩ := scanString_eq_some hstring
      exact hpad (.string hchars) (hskip.trans hrest)
    · next rest hskip =>
      obtain ⟨⟨vs, left'⟩, hlist, heq⟩ := Option.map_eq_some_iff.mp h
      cases heq
      rcases scanList_eq_some ih (fun _ _ _ hspace h => h.append_blank hspace) hlist with
        ⟨rfl, space, hblank, rfl⟩ | ⟨i, items, hitems, rfl, rfl⟩
      · exact hpad (.emptyArray hblank) (by simp [hskip])
      · exact hpad (.array hitems) (by simp [hskip])
    · next rest hskip =>
      obtain ⟨⟨ms, left'⟩, hlist, heq⟩ := Option.map_eq_some_iff.mp h
      cases heq
      rcases scanList_eq_some (takes_scanMember ih)
          (fun _ _ _ hspace h => h.append_blank hspace) hlist with
        ⟨rfl, space, hblank, rfl⟩ | ⟨i, items, hitems, rfl, rfl⟩
      · exact hpad (.emptyObject hblank) (by simp [hskip])
      · obtain ⟨members, hnames, hvalues, hpairs, hchars⟩ := exists_members hitems
        have hobject := Spells.object hnames hvalues
        rw [← hpairs, ← hchars] at hobject
        exact hpad hobject (by simp [hskip])
    · obtain ⟨text, htext, hskip⟩ := scanNumber_eq_some h
      exact hpad htext hskip

/-- **The texts of a value are exactly those that are read as it.** -/
theorem parse?_eq_some_iff {text : String} {v : Value} :
    parse? text = some v ↔ Spells v text.toList := by
  constructor
  · intro h
    unfold parse? at h
    simp only [Option.bind_eq_bind, Option.bind_eq_some_iff] at h
    obtain ⟨⟨w, left⟩, hscan, hend⟩ := h
    dsimp only at hend
    split at hend
    · next hempty =>
      cases hend
      obtain ⟨spelled, hspelled, hcs⟩ := takes_scanValue _ _ _ _ hscan
      obtain ⟨space, hspace, hleft⟩ := exists_blank left
      rw [List.isEmpty_iff.mp hempty, List.append_nil] at hleft
      rw [hcs, hleft]
      exact hspelled.append_blank hspace
    · cases hend
  · exact parse?_of_spells

end Value

end DeskCalculator.Json
