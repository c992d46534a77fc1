import DeskCalculator.Archive
import DeskCalculator.Proofs.History
import DeskCalculator.Proofs.Infinities
import DeskCalculator.Proofs.Ledger

/-!
# DeskCalculator.Proofs.Records — the entries of the histories as texts in JSON

A number that is not finite is written as `null`, and so is an operand that is not there.  What is
read back from the text of an entry depends on nothing but its numbers and its instant.
-/

namespace DeskCalculator

open Binary64
open Json (Value)

/-! ## Fields -/

namespace Json.Value

variable {members : List (String × Value)} {name : String} {v : Value}

theorem filter_named_of_notMem (h : name ∉ members.map Prod.fst) :
    (named members).filter (·.1 == some name) = [] := by
  simp only [List.filter_eq_nil_iff, named, List.mem_map]
  rintro _ ⟨⟨other, v⟩, hv, rfl⟩ hname
  obtain rfl : other = name := by simpa using hname
  exact h (List.mem_map_of_mem hv)

theorem filter_named_of_mem (hnames : (members.map Prod.fst).Nodup) (hv : (name, v) ∈ members) :
    (named members).filter (·.1 == some name) = [(some name, v)] := by
  induction members with
  | nil => cases hv
  | cons m members ih =>
    obtain ⟨hm, hnames⟩ := List.nodup_cons.mp hnames
    rcases List.mem_cons.mp hv with rfl | hv
    · have hrest := filter_named_of_notMem hm
      simpa [named] using hrest
    · have hother : m.1 ≠ name := fun h => hm (h ▸ List.mem_map_of_mem hv)
      have hrest := ih hnames hv
      simpa [named, hother] using hrest

/-- A record that may have lost some of its fields and got others, in any order. -/
inductive Varied (fields : List (String × Value)) (removed : List String)
    (members : List (String × Value)) : Prop
  | intro (others : List (String × Value)) (other_names : ∀ m ∈ others, m.1 ∉ fields.map Prod.fst)
      (perm : members.Perm (fields.filter (·.1 ∉ removed) ++ others))

theorem Varied.refl (fields : List (String × Value)) : Varied fields [] fields :=
  .intro [] nofun (by simp)

variable {fields : List (String × Value)} {removed : List String}

theorem member?_varied (h : Varied fields removed members) (hnames : (fields.map Prod.fst).Nodup)
    (hv : (name, v) ∈ fields) :
    member? name (named members) = some (if name ∈ removed then none else some v) := by
  obtain ⟨others, hothers, hperm⟩ := h
  have hother : (named others).filter (·.1 == some name) = [] := by
    refine filter_named_of_notMem ?_
    intro hmem
    obtain ⟨m, hm, rfl⟩ := List.mem_map.mp hmem
    exact hothers m hm (List.mem_map.mpr ⟨(m.1, v), hv, rfl⟩)
  have hfilter := (hperm.map fun m => (some m.1, m.2)).filter (·.1 == some name)
  rw [List.map_append, List.filter_append] at hfilter
  change ((named members).filter (·.1 == some name)).Perm
    ((named (fields.filter (·.1 ∉ removed))).filter (·.1 == some name) ++
      (named others).filter (·.1 == some name)) at hfilter
  rw [hother, List.append_nil] at hfilter
  by_cases hname : name ∈ removed
  · have hkept : name ∉ (fields.filter (·.1 ∉ removed)).map Prod.fst := by
      intro hmem
      obtain ⟨m, hm, rfl⟩ := List.mem_map.mp hmem
      simp [hname] at hm
    rw [filter_named_of_notMem hkept, List.perm_nil] at hfilter
    simp [member?, hfilter, hname]
  · have hkept : (name, v) ∈ fields.filter (·.1 ∉ removed) := by simp [hv, hname]
    have hkeptNames : ((fields.filter (·.1 ∉ removed)).map Prod.fst).Nodup :=
      hnames.sublist (List.filter_sublist.map Prod.fst)
    rw [filter_named_of_mem hkeptNames hkept, List.perm_singleton] at hfilter
    simp [member?, hfilter, hname]

/-- **A record gives back the values of the fields that it still has.** -/
theorem fields?_varied (h : Varied fields removed members) (hnames : (fields.map Prod.fst).Nodup) :
    (record members).fields? (fields.map Prod.fst) =
      some (fields.map fun m => if m.1 ∈ removed then none else some m.2) := by
  have hall : ((named members).all (·.1.isSome)) = true := by simp [named]
  have hmember : ∀ m ∈ fields,
      member? m.1 (named members) = some (if m.1 ∈ removed then none else some m.2) :=
    fun m hm => member?_varied h hnames hm
  show (if (named members).all (·.1.isSome) then
    (fields.map Prod.fst).mapM (member? · (named members)) else none) = _
  rw [if_pos hall]
  clear h hnames hall
  induction fields with
  | nil => rfl
  | cons m fields ih =>
    rw [List.map_cons, List.mapM_cons, hmember m List.mem_cons_self,
      ih fun m' hm' => hmember m' (List.mem_cons_of_mem _ hm')]
    rfl

/-- **A record gives back the values of its fields.** -/
theorem fields?_record {names : List String} (hnodup : names.Nodup)
    (hnames : members.map Prod.fst = names) :
    (record members).fields? names = some (members.map fun m => some m.2) := by
  subst hnames
  have hfields := fields?_varied (Varied.refl members) hnodup
  simpa using hfields

end Json.Value

/-! ## Numbers -/

/-- What a number is read back as from its value in JSON. -/
def reread (x : Float) : Option Float := (Value.ofFloat x).toFloat?

/-- What a number that may be missing is read back as. -/
def rereadOption (x : Option Float) : Option (Option Float) :=
  (x.elim .null Value.ofFloat).toOption? Value.toFloat?

theorem isFinite_of_reread {x y : Float} (h : reread x = some y) : x.isFinite = true := by
  by_contra hx
  rw [reread, Value.ofFloat_of_not_finite (Bool.eq_false_iff.mpr hx)] at h
  cases h

theorem rereadOption_of_finite {x : Float} (h : x.isFinite = true) :
    rereadOption (some x) = (reread x).map some := by
  obtain ⟨n, -, hvalue⟩ := Value.ofFloat_of_finite h
  simp only [rereadOption, reread, Option.elim_some, hvalue]
  rfl

theorem rereadOption_of_not_finite {x : Float} (h : x.isFinite = false) :
    rereadOption (some x) = some none := by
  simp only [rereadOption, Option.elim_some, Value.ofFloat_of_not_finite h]
  rfl

/-- A number that is there is kept just when it is finite. -/
theorem rereadOption_kept {x y : Option Float} (h : rereadOption x = some y) :
    (y.isSome = x.isSome ↔ ∀ v ∈ x, v.isFinite = true) ∧
      ∀ v ∈ x, v.isFinite = false → y = none := by
  cases x with
  | none =>
    cases h
    simp
  | some v =>
    cases hv : v.isFinite with
    | false =>
      rw [rereadOption_of_not_finite hv] at h
      cases h
      simp [hv]
    | true =>
      rw [rereadOption_of_finite hv] at h
      obtain ⟨w, -, rfl⟩ := Option.map_eq_some_iff.mp h
      simp [hv]

theorem writable_option (x : Option Float) : (x.elim .null Value.ofFloat).Writable := by
  cases x with
  | none => exact .null
  | some x => exact Value.writable_ofFloat x

/-! ## Entries -/

theorem Instant.ofJson?_toJson (t : Instant) : ofJson? t.toJson = read? t.write := by
  simp only [ofJson?, toJson, Value.toText?, Value.ofText, Option.bind_eq_bind, Option.bind_some]

theorem MemoryAction.ofJson?_toJson (action : MemoryAction) :
    ofJson? action.toJson = some action := by
  cases action <;> decide

namespace Calculation

/-- The text of a calculation. -/
def text (c : Calculation) : String := c.toJson.render

/-- The calculation of a text. -/
def ofText? (text : String) : Option Calculation := Value.parse? text >>= ofJson?

theorem writable_toJson (c : Calculation) : c.toJson.Writable := by
  refine .record ?_
  simp only [List.forall_mem_cons]
  refine ⟨.string _, .array ?_, Value.writable_ofFloat _, .string _, nofun⟩
  simp only [List.forall_mem_cons]
  exact ⟨Value.writable_ofFloat _, writable_option _, nofun⟩

/-- **What is read back from the text of a calculation.** -/
theorem ofText?_text {c c' : Calculation} : ofText? c.text = some c' ↔
    c'.operation = c.operation ∧ reread c.first = some c'.first ∧
      rereadOption c.second = some c'.second ∧ reread c.result = some c'.result ∧
      Instant.read? c.time.write = some c'.time := by
  rw [ofText?, text, Value.parse?_render c.writable_toJson]
  have hfields : c.toJson.fields? ["operation", "operands", "result", "timestamp"] =
      some [some (.ofText c.operation),
        some (.array [.ofFloat c.first, c.second.elim .null Value.ofFloat]),
        some (.ofFloat c.result), some c.time.toJson] :=
    Value.fields?_record (by decide) rfl
  have hoperation : (Value.ofText c.operation).toText? = some c.operation := rfl
  rw [Option.bind_eq_bind, Option.bind_some]
  unfold ofJson?
  simp only [hfields, hoperation, Instant.ofJson?_toJson, Option.bind_eq_bind, Option.bind_some,
    Option.bind_eq_some_iff, Option.pure_def, Option.some.injEq]
  constructor
  · rintro ⟨first, hfirst, second, hsecond, result, hresult, time, htime, rfl⟩
    exact ⟨rfl, hfirst, hsecond, hresult, htime⟩
  · rintro ⟨hoperation, hfirst, hsecond, hresult, htime⟩
    refine ⟨_, hfirst, _, hsecond, _, hresult, _, htime, ?_⟩
    rw [← hoperation]

end Calculation

namespace MemoryAccess

/-- The text of a memory access. -/
def text (a : MemoryAccess) : String := a.toJson.render

/-- The memory access of a text. -/
def ofText? (text : String) : Option MemoryAccess := Value.parse? text >>= ofJson?

theorem writable_toJson (a : MemoryAccess) : a.toJson.Writable := by
  refine .record ?_
  simp only [List.forall_mem_cons]
  exact ⟨.string _, Value.writable_ofFloat _, writable_option _, Value.writable_ofFloat _,
    .string _, nofun⟩

/-- **What is read back from the text of a memory access.** -/
theorem ofText?_text {a a' : MemoryAccess} : ofText? a.text = some a' ↔
    a'.action = a.action ∧ reread a.value = some a'.value ∧ rereadOption a.old = some a'.old ∧
      reread a.new = some a'.new ∧ Instant.read? a.time.write = some a'.time := by
  rw [ofText?, text, Value.parse?_render a.writable_toJson]
  have hfields :
      a.toJson.fields? ["operation", "value", "old_value", "new_value", "timestamp"] =
        some [some a.action.toJson, some (.ofFloat a.value), some (a.old.elim .null Value.ofFloat),
          some (.ofFloat a.new), some a.time.toJson] :=
    Value.fields?_record (by decide) rfl
  rw [Option.bind_eq_bind, Option.bind_some]
  unfold ofJson?
  simp only [hfields, MemoryAction.ofJson?_toJson, Instant.ofJson?_toJson, Option.getD_some,
    Option.bind_eq_bind, Option.bind_some, Option.bind_eq_some_iff, Option.pure_def,
    Option.some.injEq]
  constructor
  · rintro ⟨value, hvalue, old, hold, new, hnew, time, htime, rfl⟩
    exact ⟨rfl, hvalue, hold, hnew, htime⟩
  · rintro ⟨haction, hvalue, hold, hnew, htime⟩
    refine ⟨_, hvalue, _, hold, _, hnew, _, htime, ?_⟩
    rw [← haction]

end MemoryAccess

/-! ## Kinds -/

/-- The operations that can have a finite result from a second operand that is not finite. -/
theorem Binary.tag_of_losesInfinities {f : Binary} (h : f.losesInfinities = true) :
    f.tag ∈ ["divide", "modulus", "power"] := by
  cases f with
  | divide | modulus | power => decide
  | add | subtract | multiply | logarithm => cases h

namespace Calculator

variable {c : Calculator}

/-- An entry that is read back with its second operand lost is that of an operation in which an
infinity can be lost. -/
theorem operation_of_lost (h : c.Reachable) {r : Calculation} (hr : r ∈ c.history)
    (hresult : r.result.isFinite = true) {b : Float} (hb : r.second = some b)
    (hlost : b.isFinite = false) : r.operation ∈ ["divide", "modulus", "power"] := by
  obtain ⟨before, x, result, value, rfl⟩ := exists_entry_of_mem h hr
  cases x with
  | unary f u => cases hb
  | binary f a b' =>
    cases hb
    exact Binary.tag_of_losesInfinities (Computation.losesInfinities_of_result value hresult hlost)

/-- An entry that is read back with its old value lost is that of a store. -/
theorem action_of_lost (h : c.Reachable) {a : MemoryAccess} (ha : a ∈ c.memory.log)
    (hvalue : a.value.isFinite = true) (hnew : a.new.isFinite = true) {v : Float}
    (hv : a.old = some v) (hlost : v.isFinite = false) : a.action = .store := by
  obtain ⟨held, request, new, answer, posted⟩ := (ledger_of_reachable h).posted_of_mem ha
  cases posted with
  | store x time => rfl
  | retrieve time => cases hv
  | clear time =>
    cases hv
    rw [hlost] at hvalue
    cases hvalue
  | add x time =>
    cases hv
    rw [(isFinite_of_add hnew).1] at hlost
    cases hlost
  | subtract x time =>
    cases hv
    rw [(isFinite_of_sub hnew).1] at hlost
    cases hlost

/-- **What becomes of the kind of an entry.**  In a reachable state, an entry that can be read back
from its text has the same operation.  It has a second operand, or an old value, just when that of
the entry was there and finite.  One that was there and not finite is lost only from quotients,
remainders and powers, and from stores. -/
theorem kind_of_reread (h : c.Reachable) :
    (∀ r ∈ c.history, ∀ r', Calculation.ofText? r.text = some r' →
      r'.operation = r.operation ∧
      (r'.isBinary = r.isBinary ↔ ∀ b ∈ r.second, b.isFinite = true) ∧
      ∀ b ∈ r.second, b.isFinite = false →
        r'.isBinary = false ∧ r.operation ∈ ["divide", "modulus", "power"]) ∧
    ∀ a ∈ c.memory.log, ∀ a', MemoryAccess.ofText? a.text = some a' →
      a'.action = a.action ∧
      (a'.old.isSome = a.old.isSome ↔ ∀ v ∈ a.old, v.isFinite = true) ∧
      ∀ v ∈ a.old, v.isFinite = false → a'.old = none ∧ a.action = .store := by
  refine ⟨fun r hr r' hread => ?_, fun a ha a' hread => ?_⟩
  · obtain ⟨hoperation, -, hsecond, hresult, -⟩ := Calculation.ofText?_text.mp hread
    obtain ⟨hkept, hlost⟩ := rereadOption_kept hsecond
    refine ⟨hoperation, hkept, fun b hb hfinite => ⟨?_, ?_⟩⟩
    · rw [Calculation.isBinary, hlost b hb hfinite]
      rfl
    · exact operation_of_lost h hr (isFinite_of_reread hresult) hb hfinite
  · obtain ⟨haction, hvalue, hold, hnew, -⟩ := MemoryAccess.ofText?_text.mp hread
    obtain ⟨hkept, hlost⟩ := rereadOption_kept hold
    exact ⟨haction, hkept, fun v hv hfinite => ⟨hlost v hv hfinite,
      action_of_lost h ha (isFinite_of_reread hvalue) (isFinite_of_reread hnew) hv hfinite⟩⟩

/-- Two stores into the register, the second over an infinity, and a remainder by an infinity. -/
def lossyRun : Calculator :=
  run { clock := .still ⟨0, 0⟩ }
    [.access (.store (infinity .positive)), .access (.store 2),
      .compute (.binary .modulus 5 (infinity .positive))]

theorem lossyRun_reachable : lossyRun.Reachable := .run (.fresh _) _

theorem kind_of_lossyRun :
    ∃ a a', a ∈ lossyRun.memory.log ∧ MemoryAccess.ofText? a.text = some a' ∧
      a.old = some (infinity .positive) ∧ a'.old = none ∧ a'.action = .store := by
  let a : MemoryAccess := ⟨.store, 2, some (infinity .positive), 2, ⟨0, 0⟩⟩
  let a' : MemoryAccess := ⟨.store, 2, none, 2, ⟨0, 0⟩⟩
  have ha : a ∈ lossyRun.memory.log := by decide +kernel
  have hread : MemoryAccess.ofText? a.text = some a' := by decide +kernel
  obtain ⟨haction, -, hlost⟩ := (kind_of_reread lossyRun_reachable).2 a ha a' hread
  obtain ⟨hold, hstore⟩ := hlost (infinity .positive) rfl (by decide +kernel)
  exact ⟨a, a', ha, hread, rfl, hold, haction.trans hstore⟩

/-- Kinds are not always kept: the remainder is read back as an operation on one number. -/
theorem kind_not_kept :
    ¬ ∀ c : Calculator, c.Reachable →
      (∀ r ∈ c.history, ∀ r', Calculation.ofText? r.text = some r' →
        r'.operation = r.operation ∧ r'.isBinary = r.isBinary) ∧
      ∀ a ∈ c.memory.log, ∀ a', MemoryAccess.ofText? a.text = some a' →
        a'.action = a.action ∧ a'.old.isSome = a.old.isSome := by
  intro h
  let r : Calculation := ⟨"modulus", 5, some (infinity .positive), 5, ⟨0, 0⟩⟩
  let r' : Calculation := ⟨"modulus", 5, none, 5, ⟨0, 0⟩⟩
  have hr : r ∈ lossyRun.history := by decide +kernel
  have hread : Calculation.ofText? r.text = some r' := by decide +kernel
  cases ((h lossyRun lossyRun_reachable).1 r hr r' hread).2

end Calculator

end DeskCalculator
