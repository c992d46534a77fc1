import DeskCalculator.Proofs.Listings

/-!
# DeskCalculator.Proofs.HelpText — the help text lists every command once

The help text goes through the groups and takes the commands of each from the catalogue.  A list
that is sorted by groups is what these passes take, one after the other (`flatMap_filter_of_sorted`),
and stable sorting does not change what any of them takes (`filter_mergeSort`).  So the entries of
the text are the commands, sorted by groups, in a group as they stand in the catalogue.

* `help_complete`: the lines of the help text and the commands that they are for.
-/

namespace DeskCalculator

/-! ## Passes over a list -/

section

variable {α κ : Type} [DecidableEq κ] {key : α → κ} {keys : List κ} {xs : List α}

/-- The passes for other keys pass over an element. -/
theorem flatMap_filter_cons {x : α} (h : key x ∉ keys) :
    (keys.flatMap fun g => (x :: xs).filter (key · = g)) =
      keys.flatMap fun g => xs.filter (key · = g) := by
  refine List.flatMap_congr fun g hg => ?_
  have hne : key x ≠ g := fun hkey => h (hkey ▸ hg)
  simp [hne]

/-- One pass for each key takes a list that is sorted by keys as it stands. -/
theorem flatMap_filter_of_sorted (hkeys : keys.Nodup) (hmem : ∀ x ∈ xs, key x ∈ keys)
    (hsorted : xs.Pairwise fun x y => keys.idxOf (key x) ≤ keys.idxOf (key y)) :
    (keys.flatMap fun g => xs.filter (key · = g)) = xs := by
  induction xs with
  | nil => simp
  | cons x xs ih =>
    obtain ⟨hfirst, hrest⟩ := List.pairwise_cons.mp hsorted
    have ih := ih (fun y hy => hmem y (List.mem_cons_of_mem _ hy)) hrest
    obtain ⟨before, after, hsplit⟩ := List.append_of_mem (hmem x List.mem_cons_self)
    rw [hsplit] at hkeys hfirst
    obtain ⟨-, hafter, hapart⟩ := List.nodup_append.mp hkeys
    have hx : key x ∉ before := fun h => hapart _ h _ List.mem_cons_self rfl
    have hx' : key x ∉ after := (List.nodup_cons.mp hafter).1
    -- nothing comes before the first element, so that the passes before its own take nothing
    have hbefore : ∀ g ∈ before, ∀ y ∈ xs, key y ≠ g := by
      rintro g hg y hy rfl
      have hle := hfirst y hy
      rw [List.idxOf_append_of_notMem hx, List.idxOf_append_of_mem hg, List.idxOf_cons_self] at hle
      have := List.idxOf_lt_length_of_mem hg
      omega
    have hnone : (before.flatMap fun g => xs.filter (key · = g)) = [] := by
      rw [List.flatMap_eq_nil_iff]
      intro g hg
      simpa using hbefore g hg
    rw [hsplit] at ih ⊢
    rw [List.flatMap_append, List.flatMap_cons, hnone, List.nil_append] at ih
    rw [List.flatMap_append, List.flatMap_cons, flatMap_filter_cons hx, flatMap_filter_cons hx',
      hnone, List.nil_append, List.filter_cons_of_pos (by simp), List.cons_append, ih]

variable {le : α → α → Bool}

/-- Stable sorting leaves elements that are alike in their order. -/
theorem filter_mergeSort {p : α → Bool} (trans : ∀ a b c, le a b → le b c → le a c)
    (total : ∀ a b, (le a b || le b a) = true) (alike : ∀ a b, p a → p b → le a b) :
    (xs.mergeSort le).filter p = xs.filter p := by
  have hsorted : (xs.filter p).Pairwise fun a b => le a b = true := by
    refine List.pairwise_of_forall_mem_list fun a ha b hb => ?_
    exact alike a b (List.of_mem_filter ha) (List.of_mem_filter hb)
  have hsub := (List.sublist_mergeSort trans total hsorted List.filter_sublist).filter p
  simp only [List.filter_filter, Bool.and_self] at hsub
  refine (hsub.eq_of_length ?_).symm
  exact ((List.mergeSort_perm xs le).filter p).length_eq.symm

end

/-! ## The commands by groups -/

variable {α : Type}

/-- The place of a group in the help text. -/
def Category.rank (g : Category) : Nat := Category.all.idxOf g

theorem Category.mem_all (g : Category) : g ∈ Category.all := by
  cases g <;> decide

/-- Commands sorted by groups; those of one group stay in their order. -/
def byCategory (commands : List (Command α)) : List (Command α) :=
  commands.mergeSort fun c d => decide (c.category.rank ≤ d.category.rank)

theorem byCategory_perm (commands : List (Command α)) : (byCategory commands).Perm commands :=
  List.mergeSort_perm commands _

/-- **Passes over a list of commands, one for each group, sort it by groups.** -/
theorem flatMap_filter_eq_byCategory (commands : List (Command α)) :
    (Category.all.flatMap fun g => commands.filter (·.category = g)) = byCategory commands := by
  have htrans (a b c : Command α) : decide (a.category.rank ≤ b.category.rank) →
      decide (b.category.rank ≤ c.category.rank) → decide (a.category.rank ≤ c.category.rank) := by
    simpa using Nat.le_trans
  have htotal (a b : Command α) : (decide (a.category.rank ≤ b.category.rank) ||
      decide (b.category.rank ≤ a.category.rank)) = true := by
    simpa using Nat.le_total _ _
  have hsame (g : Category) :
      (byCategory commands).filter (·.category = g) = commands.filter (·.category = g) :=
    filter_mergeSort htrans htotal fun a b ha hb => by
      simp only [decide_eq_true_eq] at ha hb ⊢
      rw [ha, hb]
  have hsorted : (byCategory commands).Pairwise fun c d =>
      Category.all.idxOf c.category ≤ Category.all.idxOf d.category :=
    (List.pairwise_mergeSort htrans htotal commands).imp fun h => of_decide_eq_true h
  calc (Category.all.flatMap fun g => commands.filter (·.category = g))
      = Category.all.flatMap fun g => (byCategory commands).filter (·.category = g) :=
        List.flatMap_congr fun g _ => (hsame g).symm
    _ = byCategory commands :=
        flatMap_filter_of_sorted (by decide) (fun c _ => c.category.mem_all) hsorted

/-! ## The text -/

/-- The line of a command: its name, filled up to eight characters, its description and its usage. -/
def Command.entry (c : Command α) : String :=
  "  " ++ String.ofList (c.name.toList.rightpad 8 ' ') ++ " - " ++ c.description ++ ": " ++ c.usage

/-- A command whose entry is one line. -/
def Command.OneLine (c : Command α) : Prop :=
  ∀ text ∈ [c.name, c.description, c.usage], '\n' ∉ text.toList

instance (c : Command α) : Decidable c.OneLine :=
  inferInstanceAs (Decidable (∀ text ∈ [c.name, c.description, c.usage], '\n' ∉ text.toList))

theorem Command.OneLine.entry {c : Command α} (h : c.OneLine) : '\n' ∉ c.entry.toList := by
  have hname := h c.name (by simp)
  have hdescription := h c.description (by simp)
  have husage := h c.usage (by simp)
  simp [Command.entry, List.rightpad, hname, hdescription, husage]

theorem Category.title_oneLine (g : Category) : '\n' ∉ g.title.toList := by
  cases g <;> decide

namespace Catalogue

/-- The groups that have commands, in the order of the help text, each with its commands. -/
def blocks (k : Catalogue α) : List (Category × List (Command α)) :=
  (Category.all.map fun g => (g, k.members g)).filter (!·.2.isEmpty)

/-- The lines of a group: an empty one, the heading, and one for each command. -/
def blockLines (b : Category × List (Command α)) : List String :=
  "" :: (b.1.title ++ ":") :: b.2.map Command.entry

/-- The last lines of the help text. -/
def tipLines : List String :=
  ["", "Tips:", "  Chain operations work on the last result", "  Type 'exit' to quit"]

/-- The lines of the help text. -/
def helpLines (k : Catalogue α) : List String :=
  "Available commands:" :: (k.blocks.flatMap blockLines ++ tipLines)

/-- A text put together from its lines: each but the first begins with a line break. -/
theorem intercalate_eq_join (line : String) (lines : List String) :
    "\n".intercalate (line :: lines) = line ++ String.join (lines.map ("\n" ++ ·)) := by
  induction lines generalizing line with
  | nil => simp
  | cons next lines ih =>
    rw [String.intercalate_cons_cons, ih, List.map_cons, String.join_cons]
    simp only [String.append_assoc]

theorem helpLine_eq (c : Command α) : helpLine c = "\n" ++ c.entry := by
  rw [← String.toList_inj]
  simp [helpLine, Command.entry, List.rightpad, String.length_toList]

theorem helpBlock_eq (k : Catalogue α) (g : Category) : k.helpBlock g =
    if (k.members g).isEmpty then ""
    else String.join ((blockLines (g, k.members g)).map ("\n" ++ ·)) := by
  have hlines : (k.members g).map helpLine = ((k.members g).map Command.entry).map ("\n" ++ ·) := by
    rw [List.map_map]
    exact List.map_congr_left fun c _ => helpLine_eq c
  unfold helpBlock
  rw [hlines]
  simp only [List.isEmpty_map]
  split
  · rfl
  · rw [blockLines, List.map_cons, List.map_cons, String.join_cons, String.join_cons,
      ← String.toList_inj]
    simp

/-- A group without commands leaves nothing in the help text. -/
theorem join_helpBlocks (k : Catalogue α) : String.join (Category.all.map k.helpBlock) =
    String.join ((k.blocks.flatMap blockLines).map ("\n" ++ ·)) := by
  unfold blocks
  generalize Category.all = groups
  induction groups with
  | nil => rfl
  | cons g groups ih =>
    rw [List.map_cons, String.join_cons, ih, helpBlock_eq, List.map_cons]
    by_cases hg : (k.members g).isEmpty
    · rw [if_pos hg, List.filter_cons_of_neg (by simpa using hg)]
      simp
    · rw [if_neg hg, List.filter_cons_of_pos (by simpa using hg), List.flatMap_cons,
        List.map_append, String.join_append]

theorem tips_eq : tips = String.join (tipLines.map ("\n" ++ ·)) := by
  decide +kernel

theorem help_eq (k : Catalogue α) : k.help = "\n".intercalate k.helpLines := by
  rw [helpLines, intercalate_eq_join, List.map_append, String.join_append, ← tips_eq,
    ← join_helpBlocks, ← String.append_assoc]
  rfl

variable {k : Catalogue α}

theorem mem_blocks {b : Category × List (Command α)} :
    b ∈ k.blocks ↔ b.2 = k.commands.filter (·.category = b.1) ∧ b.2 ≠ [] := by
  obtain ⟨g, commands⟩ := b
  simp only [blocks, List.mem_filter, List.mem_map, Prod.mk.injEq, members]
  constructor
  · rintro ⟨⟨g', -, rfl, rfl⟩, hne⟩
    exact ⟨rfl, by simpa using hne⟩
  · rintro ⟨hcommands, hne⟩
    exact ⟨⟨g, g.mem_all, rfl, hcommands.symm⟩, by simpa using hne⟩

theorem blocks_fst (k : Catalogue α) : k.blocks.map Prod.fst =
    Category.all.filter fun g => k.commands.any (·.category = g) := by
  rw [blocks, List.filter_map, List.map_map]
  show (List.map id _) = _
  rw [List.map_id]
  refine List.filter_congr fun g _ => ?_
  rw [Bool.eq_iff_iff]
  simp [members]

/-- The commands of all groups are the commands of the passes. -/
theorem blocks_snd (k : Catalogue α) : k.blocks.flatMap Prod.snd = byCategory k.commands := by
  rw [← flatMap_filter_eq_byCategory, blocks]
  generalize Category.all = groups
  induction groups with
  | nil => rfl
  | cons g groups ih =>
    have hmembers : k.members g = k.commands.filter (·.category = g) := rfl
    rw [List.map_cons, List.flatMap_cons, ← ih, ← hmembers]
    by_cases hg : k.members g = []
    · rw [hg, List.filter_cons_of_neg (by simp), List.nil_append]
    · rw [List.filter_cons_of_pos (by simpa using hg), List.flatMap_cons]

theorem helpLines_oneLine (h : ∀ c ∈ k.commands, c.OneLine) :
    ∀ line ∈ k.helpLines, '\n' ∉ line.toList := by
  intro line hline
  rw [helpLines, List.mem_cons, List.mem_append, List.mem_flatMap] at hline
  rcases hline with rfl | ⟨b, hb, hline⟩ | hline
  · decide
  · obtain ⟨hcommands, -⟩ := mem_blocks.mp hb
    rw [blockLines, List.mem_cons, List.mem_cons, List.mem_map] at hline
    rcases hline with rfl | rfl | ⟨c, hc, rfl⟩
    · simp
    · simp [b.1.title_oneLine]
    · rw [hcommands] at hc
      exact (h c (List.mem_of_mem_filter hc)).entry
  · revert line
    decide

/-- **The help text is complete, and lists every command once.**  It is the opening line, a block
for each group that has commands, in the order of the groups, and the tips.  No block is empty, and
the commands of a block are of its group.  Put together, the commands of the blocks are those of the
catalogue, sorted by groups, in a group as they stand in the catalogue.  If no line break is written
in the commands, these are the lines of the text. -/
theorem help_complete (k : Catalogue α) :
    k.help = "\n".intercalate k.helpLines ∧
    k.blocks.map Prod.fst = Category.all.filter (fun g => k.commands.any (·.category = g)) ∧
    (∀ b ∈ k.blocks, b.2 ≠ [] ∧ ∀ c ∈ b.2, c.category = b.1) ∧
    k.blocks.flatMap Prod.snd = byCategory k.commands ∧
    (byCategory k.commands).Perm k.commands ∧
    ((∀ c ∈ k.commands, c.OneLine) → Text.linesOf k.help = k.helpLines) := by
  refine ⟨k.help_eq, k.blocks_fst, fun b hb => ?_, k.blocks_snd, byCategory_perm _, fun h => ?_⟩
  · obtain ⟨hcommands, hne⟩ := mem_blocks.mp hb
    refine ⟨hne, fun c hc => ?_⟩
    rw [hcommands] at hc
    simpa using List.of_mem_filter hc
  · rw [k.help_eq]
    exact Display.linesOf_intercalate (List.cons_ne_nil _ _) (helpLines_oneLine h)

/-- Three commands, of which one is moved to another group when its name is registered again. -/
def movedCommand : Catalogue :=
  .ofList [⟨"quit", 0, .utility, "quit", "Leave", .fixed .exit⟩,
    ⟨"logarithm", 1, .scientific, "logarithm <x>", "Natural logarithm", .unary .naturalLog⟩,
    ⟨"tau", 0, .constants, "tau", "Twice pi", .fixed (.showConstant .pi)⟩,
    ⟨"quit", 0, .scientific, "quit", "Leave", .fixed .exit⟩]

theorem movedCommand_help : Text.linesOf movedCommand.help =
    ["Available commands:", "", "Scientific Operations:", "  quit     - Leave: quit",
      "  logarithm - Natural logarithm: logarithm <x>", "", "Constants:",
      "  tau      - Twice pi: tau", "", "Tips:", "  Chain operations work on the last result",
      "  Type 'exit' to quit"] := by
  obtain ⟨-, -, -, -, -, hlines⟩ := help_complete movedCommand
  rw [hlines (by decide)]
  decide +kernel

end Catalogue

end DeskCalculator
