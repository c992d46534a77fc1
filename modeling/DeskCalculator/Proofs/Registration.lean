import Mathlib.Data.Finset.Card
import Mathlib.Data.List.Dedup
import DeskCalculator.Command.Standard
import DeskCalculator.Interpreter

/-!
# DeskCalculator.Proofs.Registration — the list and the index of a catalogue stay in step

A catalogue keeps its commands twice: in a list, which has the order, and in an index from names to
positions, through which they are found.  `Indexed` says that the two are in step.  Registering a
command keeps them so, whether its name is new or not (`Indexed.register`), and changes what is
found under its name and nothing else (`Indexed.find?_register`).  What the commands do plays no
part in this, so they may do anything.

* `Registered`: the catalogues that registering comes to, with the commands that were registered.
* `represented`: their names, their order, what is found in them, and the command of a line.
-/

namespace DeskCalculator.Catalogue

variable {α : Type}

/-- The names of the commands, in order. -/
def names (k : Catalogue α) : List String := k.commands.map Command.name

/-- The list and the index are in step: no name is in the list twice, and the index has the names of
the list, each with its position there, and no others. -/
structure Indexed (k : Catalogue α) : Prop where
  nodup : k.names.Nodup
  position?_iff : ∀ name n, k.position? name = some n ↔ k.names[n]? = some name

theorem indexed_empty : Indexed (α := α) {} := ⟨List.nodup_nil, by simp [position?, names]⟩

section

variable {k : Catalogue α} {c : Command α} {name : String} {n : Nat}

/-! ## What is found -/

theorem getElem?_names :
    k.names[n]? = some name ↔ ∃ c, k.commands[n]? = some c ∧ c.name = name := by
  simp [names]

theorem Indexed.position?_eq_none (h : k.Indexed) : k.position? name = none ↔ name ∉ k.names := by
  constructor
  · intro hnone hmem
    obtain ⟨n, hn⟩ := List.mem_iff_getElem?.mp hmem
    rw [(h.position?_iff name n).mpr hn] at hnone
    cases hnone
  · intro hmem
    rw [Option.eq_none_iff_forall_not_mem]
    intro n hn
    exact hmem (List.mem_of_getElem? ((h.position?_iff name n).mp hn))

/-- A position that is in the index is one of the list. -/
theorem Indexed.lt_length (h : k.Indexed) (hn : k.position? name = some n) :
    n < k.commands.length := by
  have hlt := (List.getElem?_eq_some_iff.mp ((h.position?_iff name n).mp hn)).1
  simpa [names] using hlt

/-- What is found under a name is the command of that name. -/
theorem Indexed.find?_eq_some (h : k.Indexed) :
    k.find? name = some c ↔ c ∈ k.commands ∧ c.name = name := by
  unfold find?
  rw [Option.bind_eq_some_iff]
  constructor
  · rintro ⟨n, hn, hc⟩
    obtain ⟨d, hd, hname⟩ := getElem?_names.mp ((h.position?_iff name n).mp hn)
    rw [hc] at hd
    cases hd
    exact ⟨List.mem_of_getElem? hc, hname⟩
  · rintro ⟨hmem, hname⟩
    obtain ⟨n, hn⟩ := List.mem_iff_getElem?.mp hmem
    exact ⟨n, (h.position?_iff name n).mpr (getElem?_names.mpr ⟨c, hn, hname⟩), hn⟩

/-! ## Registering a command -/

theorem register_of_known (hn : k.position? c.name = some n) :
    k.register c = { k with commands := k.commands.set n c } := by
  simp only [register, hn]

theorem register_of_new (hn : k.position? c.name = none) : k.register c =
    { commands := k.commands ++ [c], index := (c.name, k.commands.length) :: k.index } := by
  simp only [register, hn]

/-- A command that is put in the place of one of its name leaves the names as they are. -/
theorem Indexed.names_of_known (h : k.Indexed) (hn : k.position? c.name = some n) :
    (k.register c).names = k.names := by
  have hname : k.names[n]? = some c.name := (h.position?_iff c.name n).mp hn
  obtain ⟨hlt, hget⟩ := List.getElem?_eq_some_iff.mp hname
  calc (k.register c).names = k.names.set n c.name := by
        rw [register_of_known hn, names, List.map_set, names]
    _ = k.names := by rw [← hget, List.set_getElem_self]

theorem names_of_new (hn : k.position? c.name = none) :
    (k.register c).names = k.names ++ [c.name] := by
  rw [register_of_new hn]
  simp [names]

theorem Indexed.names_register (h : k.Indexed) (c : Command α) :
    (k.register c).names = if c.name ∈ k.names then k.names else k.names ++ [c.name] := by
  cases hn : k.position? c.name with
  | none => rw [names_of_new hn, if_neg (h.position?_eq_none.mp hn)]
  | some n =>
    have hmem : c.name ∈ k.names := List.mem_of_getElem? ((h.position?_iff c.name n).mp hn)
    rw [h.names_of_known hn, if_pos hmem]

theorem position?_of_new (hn : k.position? c.name = none) (name : String) :
    (k.register c).position? name =
      if name = c.name then some k.commands.length else k.position? name := by
  rw [register_of_new hn, position?, List.lookup_cons]
  by_cases hname : name = c.name
  · simp [hname]
  · simp [hname, beq_false_of_ne hname, position?]

theorem getElem?_concat_eq_some {known : List String} {new : String} :
    (known ++ [new])[n]? = some name ↔ known[n]? = some name ∨ n = known.length ∧ name = new := by
  rcases Nat.lt_trichotomy n known.length with hlt | rfl | hgt
  · rw [List.getElem?_append_left hlt]
    simp [hlt.ne]
  · simp [eq_comm]
  · rw [List.getElem?_eq_none (by simp; omega), List.getElem?_eq_none hgt.le]
    simp [hgt.ne']

/-- **Registering keeps the list and the index in step.** -/
theorem Indexed.register (h : k.Indexed) (c : Command α) : (k.register c).Indexed := by
  cases hn : k.position? c.name with
  | some n =>
    have hnames := h.names_of_known hn
    refine ⟨hnames ▸ h.nodup, fun name m => ?_⟩
    rw [hnames, ← h.position?_iff, register_of_known hn]
    rfl
  | none =>
    have hfresh : c.name ∉ k.names := h.position?_eq_none.mp hn
    have hlength : k.names.length = k.commands.length := List.length_map ..
    refine ⟨?_, fun name m => ?_⟩
    · rw [names_of_new hn]
      exact List.nodup_append.mpr ⟨h.nodup, List.nodup_singleton _, by
        rintro a ha b hb rfl
        exact hfresh (List.mem_singleton.mp hb ▸ ha)⟩
    · rw [names_of_new hn, position?_of_new hn, getElem?_concat_eq_some]
      by_cases hname : name = c.name
      · -- the new name stands behind all the others, and among them it does not stand
        subst hname
        have hnot : k.names[m]? ≠ some c.name := fun hm => hfresh (List.mem_of_getElem? hm)
        rw [if_pos rfl, Option.some_inj, hlength]
        simp [hnot, eq_comm]
      · rw [if_neg hname, h.position?_iff]
        simp [hname]

/-- **What registering changes** is what is found under the name of the command. -/
theorem Indexed.find?_register (h : k.Indexed) (c : Command α) (name : String) :
    (k.register c).find? name = if c.name = name then some c else k.find? name := by
  cases hn : k.position? c.name with
  | some n =>
    have hlt := h.lt_length hn
    rw [register_of_known hn]
    by_cases hname : c.name = name
    · subst hname
      show (k.position? c.name).bind _ = _
      simp [hn, hlt]
    · rw [if_neg hname]
      show (k.position? name).bind _ = _
      cases hm : k.position? name with
      | none => simp [find?, hm]
      | some m =>
        have hne : n ≠ m := by
          rintro rfl
          have hm := (h.position?_iff name n).mp hm
          rw [(h.position?_iff c.name n).mp hn] at hm
          exact hname (Option.some.inj hm)
        simp [find?, hm, hne]
  | none =>
    rw [find?, position?_of_new hn]
    by_cases hname : c.name = name
    · subst hname
      rw [if_pos rfl, if_pos rfl, register_of_new hn]
      simp
    · rw [if_neg (Ne.symm hname), if_neg hname, find?]
      refine Option.bind_congr fun m hm => ?_
      rw [register_of_new hn, List.getElem?_append_left (h.lt_length hm)]

end

/-! ## Registering several commands -/

theorem ofList_concat (commands : List (Command α)) (c : Command α) :
    ofList (commands ++ [c]) = (ofList commands).register c := by
  simp [ofList]

theorem indexed_ofList (commands : List (Command α)) : (ofList commands).Indexed := by
  induction commands using List.reverseRecOn with
  | nil => exact indexed_empty
  | append_singleton commands c ih => exact ofList_concat commands c ▸ ih.register c

/-- The one that was registered last of the commands of a name. -/
def lastNamed? (registered : List (Command α)) (name : String) : Option (Command α) :=
  registered.reverse.find? (·.name = name)

theorem find?_ofList (commands : List (Command α)) (name : String) :
    (ofList commands).find? name = lastNamed? commands name := by
  induction commands using List.reverseRecOn with
  | nil => rfl
  | append_singleton commands c ih =>
    rw [ofList_concat, (indexed_ofList commands).find?_register, ih, lastNamed?, lastNamed?,
      List.reverse_concat, List.find?_cons]
    by_cases hname : c.name = name <;> simp [hname]

theorem names_ofList (commands : List (Command α)) :
    (ofList commands).names = (commands.map Command.name).eraseDups := by
  induction commands using List.reverseRecOn with
  | nil => rfl
  | append_singleton commands c ih =>
    rw [ofList_concat, (indexed_ofList commands).names_register, ih, List.map_append,
      List.eraseDups_append]
    by_cases hmem : c.name ∈ commands.map Command.name
    · simp [List.removeAll, List.mem_map.mp hmem]
    · have hkept : [c.name].removeAll (commands.map Command.name) = [c.name] := by
        simp only [List.removeAll]
        rw [List.filter_cons_of_pos (by simpa using hmem), List.filter_nil]
      rw [List.map_singleton, hkept, if_neg (by simpa using hmem)]
      rfl

/-- Each name has the command that was registered last under it. -/
theorem commands_ofList (commands : List (Command α)) :
    (ofList commands).commands.map some = (ofList commands).names.map (lastNamed? commands) := by
  have h := indexed_ofList commands
  rw [names, List.map_map]
  refine List.map_congr_left fun c hc => ?_
  rw [Function.comp_apply, ← find?_ofList, h.find?_eq_some.mpr ⟨hc, rfl⟩]

theorem size_ofList (commands : List (Command α)) :
    (ofList commands).size = (commands.map Command.name).toFinset.card := by
  have hnodup := (indexed_ofList commands).nodup
  have hsame : (ofList commands).names.toFinset = (commands.map Command.name).toFinset := by
    ext name
    simp [names_ofList]
  rw [← hsame, List.toFinset_card_of_nodup hnodup, names, List.length_map, size]

/-! ## The catalogues that registering comes to -/

variable [Handling α]

/-- `Registered registered k`: the catalogue `k` comes from the empty one or from that of the
calculator by registering commands, and `registered` are all that were ever registered, in order. -/
inductive Registered : List (Command α) → Catalogue α → Prop
  | empty : Registered [] {}
  | standard : Registered (Command.standardAmong α) (.standard α)
  | register {registered : List (Command α)} {k : Catalogue α} (h : Registered registered k)
      (c : Command α) : Registered (registered ++ [c]) (k.register c)

theorem Registered.eq_ofList {registered : List (Command α)} {k : Catalogue α}
    (h : Registered registered k) : k = ofList registered := by
  induction h with
  | empty => rfl
  | standard => rfl
  | register h c ih => rw [ofList_concat, ih]

/-- **The list and the index of a catalogue show what was registered**, whatever the commands do.
The names are all different, and the index has each of them with the position at which its command
stands.  Under a name the command is found that was registered last under it.  The commands stand in
the order in which their names were first registered, and there are as many as there are different
names.  The first word of a line, in lower case, is carried out by the command that was registered
last under it, which sees the catalogue and the other words; and the calculator's own commands, also
under other names and with other numbers of arguments, do what they always do. -/
theorem represented {registered : List (Command α)} {k : Catalogue α}
    (h : Registered registered k) :
    k.names.Nodup ∧
    (∀ name n, k.position? name = some n ↔
      ∃ hn : n < k.commands.length, k.commands[n].name = name) ∧
    (∀ name, k.find? name = lastNamed? registered name) ∧
    k.names = (registered.map Command.name).eraseDups ∧
    k.commands.map some = k.names.map (lastNamed? registered) ∧
    k.size = (registered.map Command.name).toFinset.card ∧
    (∀ (i : Interpreter α) (line : String) (first : List Char) (others : List (List Char)),
      i.catalogue = k → Text.words line.toList = first :: others →
      let name := String.ofList (Text.lowercase first)
      i.submit line =
        match lastNamed? registered name with
        | some command =>
          i.answer (k.invoke command ⟨others.map .ofList, i.strictness⟩ i.calculator)
        | none => (i, .error (.unknownCommand name))) ∧
    ∀ command : Command, k.invoke (command.map Handling.ofAction) = command.invoke k.help := by
  obtain rfl := h.eq_ofList
  have hindexed := indexed_ofList registered
  refine ⟨hindexed.nodup, fun name n => ?_, find?_ofList registered, names_ofList registered,
    commands_ofList registered, size_ofList registered, fun i line first others hi hline => ?_,
    invoke_map_ofAction _⟩
  · rw [hindexed.position?_iff, List.getElem?_eq_some_iff]
    simp [names]
  · have hsplit : splitLine line =
        some (String.ofList (Text.lowercase first), others.map .ofList) := by
      simp only [splitLine, hline]
    dsimp only
    rw [← find?_ofList, Interpreter.submit, hsplit, hi]
    cases hfind : (ofList registered).find? (String.ofList (Text.lowercase first)) <;> simp [hfind]

/-- What the commands of a talkative calculator do. -/
inductive Talk
  | own (action : Action)
  /-- Says something and ends the session. -/
  | farewell (text : String)
  /-- Says how many commands there are. -/
  | count

instance : Handling Talk where
  ofAction := .own
  perform
    | .own action, k => action.perform k.help
    | .farewell text, _ => fun _ c => (c, .ok { text, exits := true })
    | .count, k => fun _ c => (c, .ok { text := toString k.size })
  perform_ofAction _ _ := rfl

/-- Another farewell, a count, a command under the name of another one, and that one again under a
new name. -/
def talkative : List (Command Talk) :=
  [⟨"exit", 0, .utility, "exit", "Leave", .farewell "Bye"⟩,
    ⟨"ln", 0, .utility, "ln", "Count the commands", .count⟩,
    ⟨"nat", 1, .scientific, "nat <number>", "Natural logarithm", .own (.unary .naturalLog)⟩,
    ⟨"ln", 1, .display, "ln <number>", "Base-10 logarithm", .own (.unary .commonLog)⟩,
    ⟨"size", 0, .utility, "size", "Count the commands", .count⟩]

theorem represented_talkative :
    let k := talkative.foldl register (.standard Talk)
    let i : Interpreter Talk := { calculator := { clock := .still ⟨0, 0⟩ }, catalogue := k }
    k.size = 40 ∧ k.position? "ln" = some 16 ∧ k.position? "nat" = some 38 ∧
      (i.submit "LN 100").2 = .ok (some { text := "log10(100) = 2" }) ∧
      (i.submit "size").2 = .ok (some { text := "40" }) ∧
      (i.submit "Exit").2 = .ok (some { text := "Bye", exits := true }) := by
  have hregistered : Registered (Command.standardAmong Talk ++ talkative)
      (talkative.foldl register (.standard Talk)) := by
    simpa [talkative] using
      ((((Registered.standard.register _).register _).register _).register _).register _
  obtain ⟨-, hposition, -, -, -, hsize, hline, -⟩ := represented hregistered
  dsimp only
  refine ⟨?_, ?_, ?_, ?_, ?_, ?_⟩
  · rw [hsize]
    decide +kernel
  · rw [hposition]
    decide +kernel
  · rw [hposition]
    decide +kernel
  · rw [hline _ "LN 100" "LN".toList ["100".toList] rfl (by decide +kernel)]
    decide +kernel
  · rw [hline _ "size" "size".toList [] rfl (by decide +kernel)]
    decide +kernel
  · rw [hline _ "Exit" "Exit".toList [] rfl (by decide +kernel)]
    decide +kernel

end DeskCalculator.Catalogue
