import DeskCalculator.Proofs.Replies

/-!
# DeskCalculator.Proofs.Names — in which spellings a command is known

The name of a command is looked up in lower case, and the lower case is that of Unicode.  Only ASCII
letters of either case come to be the letters of the names: of the other characters one alone has an
ASCII letter as its lower case, the Kelvin sign, and no name has a `k` in it.

* `Text.lowercase_eq_iff`: what is spelled like a name is spelled so in ASCII.
* `Interpreter.only_exit_stops`: the interpreter is stopped by the word `exit` alone.
-/

namespace DeskCalculator

namespace Text

/-- A text with its ASCII letters in lower case, all else being left as it is. -/
def asciiLower (cs : List Char) : List Char := cs.map Char.toLower

/-! ## Single characters -/

/-- The characters that no name of a standard command has: those beyond ASCII, the character zero,
and the letter `k`. -/
def Foreign (c : Char) : Prop := 128 ≤ c.toNat ∨ c.toNat = 0 ∨ c = 'k'

instance : DecidablePred Foreign := fun _ => inferInstanceAs (Decidable (_ ∨ _ ∨ _))

theorem toNat_ofNat (n : Nat) : (Char.ofNat n).toNat = n ∨ (Char.ofNat n).toNat = 0 := by
  by_cases h : n.isValidChar
  · left
    rw [Char.ofNat, dif_pos h]
    rfl
  · right
    rw [Char.ofNat, dif_neg h]
    rfl

/-- Only the first run has ASCII characters, and only the Kelvin sign is moved down to them. -/
theorem caseRuns_beyond : ∀ r ∈ caseRuns.tail, 128 ≤ r.first ∧
    (128 ≤ r.first + r.shift ∨ r.first = 0x212A ∧ r.last = 0x212A ∧ r.shift = -8383) := by
  decide +kernel

theorem bounds_of_contains {r : CaseRun} {n : Nat} (h : r.contains n = true) :
    r.first ≤ n ∧ n ≤ r.last := by
  simp only [CaseRun.contains, Bool.and_eq_true, decide_eq_true_eq] at h
  exact h.1

theorem lowerChar_of_ascii {c : Char} (h : c.toNat < 128) : lowerChar c = [c.toLower] := by
  have hdot : c ≠ '\u0130' := by
    rintro rfl
    exact absurd h (by decide)
  have hbeyond : caseRuns.tail.find? (·.contains c.toNat) = none := by
    refine List.find?_eq_none.mpr fun r hr hcontains => ?_
    have hfirst := (caseRuns_beyond r hr).1
    have hlow := (bounds_of_contains hcontains).1
    omega
  have hruns : caseRuns = ⟨0x41, 0x5A, 1, 32⟩ :: caseRuns.tail := rfl
  have hcapital : ∀ n : Fin 128,
      (if CaseRun.contains ⟨0x41, 0x5A, 1, 32⟩ n then [Char.ofNat (n + (32 : Int)).toNat]
        else [.ofNat n]) = [(Char.ofNat n).toLower] := by
    decide +kernel
  have hc := hcapital ⟨c.toNat, h⟩
  rw [Char.ofNat_toNat] at hc
  rw [← hc, lowerChar, if_neg hdot, hruns, List.find?_cons, hbeyond]
  cases CaseRun.contains ⟨0x41, 0x5A, 1, 32⟩ c.toNat <;> rfl

/-- A character beyond ASCII does not come to be an ASCII character but a `k`. -/
theorem foreign_lowerChar {c : Char} (h : 128 ≤ c.toNat) : ∃ d ∈ lowerChar c, Foreign d := by
  unfold lowerChar
  split
  · exact ⟨'\u0307', List.mem_cons_of_mem _ (List.mem_singleton_self _), .inl (by decide)⟩
  · split
    · next r hfind =>
      have hcontains := List.find?_some hfind
      obtain ⟨hfirst, hlast⟩ := bounds_of_contains hcontains
      refine ⟨_, List.mem_singleton_self _, ?_⟩
      rcases List.mem_cons.mp (List.mem_of_find?_eq_some hfind) with rfl | hmem
      · simp only at hlast
        omega
      · obtain ⟨-, hshift | ⟨hk, hk', hshift⟩⟩ := caseRuns_beyond r hmem
        · rcases toNat_ofNat (c.toNat + r.shift).toNat with h | h
          · exact .inl (by omega)
          · exact .inr (.inl h)
        · have hc : (c.toNat + r.shift).toNat = 'k'.toNat := by
            show _ = 107
            omega
          rw [hc]
          exact .inr (.inr rfl)
    · exact ⟨c, List.mem_singleton_self c, .inl h⟩

theorem toLower_of_beyond {c : Char} (h : 128 ≤ c.toNat) : c.toLower = c := by
  have hupper : ¬ (c.val ≥ 'A'.val ∧ c.val ≤ 'Z'.val) := by
    rintro ⟨-, hz⟩
    have hz' : c.toNat ≤ 90 := UInt32.le_iff_toNat_le.mp hz
    omega
  exact dif_neg hupper

/-! ## Words -/

variable {before cs name : List Char}

theorem lowerAfter_of_ascii (h : ∀ c ∈ cs, c.toNat < 128) :
    lowerAfter before cs = asciiLower cs := by
  induction cs generalizing before with
  | nil => rfl
  | cons c cs ih =>
    have hc := h c List.mem_cons_self
    have hsigma : c ≠ 'Σ' := by
      rintro rfl
      exact absurd hc (by decide)
    simp only [lowerAfter, if_neg hsigma, lowerChar_of_ascii hc, asciiLower, List.map_cons,
      List.singleton_append]
    rw [ih fun d hd => h d (List.mem_cons_of_mem _ hd)]
    rfl

/-- A text with a character beyond ASCII has a foreign character in its lower case. -/
theorem ascii_of_lowerAfter (h : ∀ d ∈ lowerAfter before cs, ¬ Foreign d) :
    ∀ c ∈ cs, c.toNat < 128 := by
  induction cs generalizing before with
  | nil => exact nofun
  | cons c cs ih =>
    intro b hb
    simp only [lowerAfter] at h
    rcases List.mem_cons.mp hb with rfl | hb
    · by_contra hbeyond
      have hforeign : ∃ d ∈ (if b = 'Σ' then
          if casedNext before && !casedNext cs then ['ς'] else ['σ'] else lowerChar b),
          Foreign d := by
        split
        · split
          · exact ⟨'ς', List.mem_singleton_self _, .inl (by decide)⟩
          · exact ⟨'σ', List.mem_singleton_self _, .inl (by decide)⟩
        · exact foreign_lowerChar (Nat.not_lt.mp hbeyond)
      obtain ⟨d, hd, hd'⟩ := hforeign
      exact h d (List.mem_append_left _ hd) hd'
    · exact ih (fun d hd => h d (List.mem_append_right _ hd)) b hb

/-- **What comes to be a name in lower case is spelled in ASCII**, when no character of the name is
foreign. -/
theorem lowercase_eq_iff (hname : ∀ d ∈ name, ¬ Foreign d) :
    lowercase cs = name ↔ asciiLower cs = name := by
  constructor
  · intro h
    have hlower : ∀ d ∈ lowerAfter [] cs, ¬ Foreign d := fun d hd => hname d (h ▸ hd)
    have hascii : ∀ c ∈ cs, c.toNat < 128 := ascii_of_lowerAfter hlower
    exact (lowerAfter_of_ascii hascii).symm.trans h
  · intro h
    have hascii : ∀ c ∈ cs, c.toNat < 128 := by
      intro c hc
      by_contra hbeyond
      have hmem : c.toLower ∈ name := h ▸ List.mem_map_of_mem hc
      rw [toLower_of_beyond (Nat.not_lt.mp hbeyond)] at hmem
      exact hname c hmem (.inl (Nat.not_lt.mp hbeyond))
    exact (lowerAfter_of_ascii hascii).trans h

end Text

/-! ## The names of the standard commands -/

theorem standard_names : ∀ command ∈ Command.standard, ∀ d ∈ command.name.toList,
    ¬ Text.Foreign d := by
  have hall : (Command.standard.all fun command =>
      command.name.toList.all fun d => decide (¬ Text.Foreign d)) = true := by decide
  intro command hcommand d hd
  exact of_decide_eq_true (List.all_eq_true.mp (List.all_eq_true.mp hall command hcommand) d hd)

theorem lowercase_eq_name_iff {command : Command} (h : command ∈ Command.standard)
    (word : List Char) :
    String.ofList (Text.lowercase word) = command.name ↔
      String.ofList (Text.asciiLower word) = command.name := by
  simp only [← String.toList_inj, String.toList_ofList]
  exact Text.lowercase_eq_iff (standard_names command h)

/-- A word is taken for the name of a command exactly when it is the name in ASCII letters. -/
theorem find?_lowercase_iff {word : List Char} {command : Command} :
    Catalogue.standard.find? (.ofList (Text.lowercase word)) = some command ↔
      command ∈ Command.standard ∧ String.ofList (Text.asciiLower word) = command.name := by
  constructor
  · intro h
    obtain ⟨hmem, hname⟩ := mem_standard_of_find? h
    exact ⟨hmem, (lowercase_eq_name_iff hmem word).mp hname.symm⟩
  · rintro ⟨hmem, hname⟩
    rw [(lowercase_eq_name_iff hmem word).mpr hname]
    exact find?_of_mem hmem

/-! ## The line that stops the interpreter -/

/-- The line is the one word `exit`, in ASCII letters of either case. -/
def SaysExit (line : String) : Prop :=
  ∃ word, Text.words line.toList = [word] ∧ String.ofList (Text.asciiLower word) = "exit"

theorem standard_exits : ∀ command ∈ Command.standard,
    command.action = .fixed .exit → command.name = "exit" := by
  decide

theorem splitLine_eq_exit_iff {line : String} : splitLine line = some ("exit", []) ↔
    SaysExit line := by
  have hexit (word : List Char) : String.ofList (Text.lowercase word) = "exit" ↔
      String.ofList (Text.asciiLower word) = "exit" :=
    lowercase_eq_name_iff (List.getElem_mem (n := 37) (by decide)) word
  unfold splitLine SaysExit
  cases hwords : Text.words line.toList with
  | nil => simp
  | cons first others => simp [hexit, and_comm]

theorem reading_eq_exit_iff {s : Strictness} {line : String} :
    Catalogue.standard.reading s line = .instruction .exit ↔ SaysExit line := by
  rw [← splitLine_eq_exit_iff]
  constructor
  · intro h
    obtain ⟨name, words, command, hline, hmem, hname, harity, hread⟩ := exists_command_of_reading h
    obtain ⟨haction, rfl⟩ := fixed_of_read hmem harity hread rfl
    rw [hline, ← hname, standard_exits command hmem haction]
  · intro h
    have hfind : Catalogue.standard.find? "exit" = some Command.standard[37] := rfl
    exact Catalogue.reading_of_known h hfind

/-- Only the reply to `exit` ends the session. -/
theorem Instruction.exits_of_perform {help : String} {i : Instruction} {c : Calculator} {r : Reply}
    (h : (i.perform help c).2 = .ok r) : r.exits = true ↔ i = .exit := by
  cases i with
  | compute _ | chain _ _ | setAngleUnit _ | setPrecision _ =>
    obtain ⟨answer, -, rfl⟩ := reply_eq_ok h
    exact iff_of_false Bool.false_ne_true nofun
  | memory _ | showLast | showHistory | showMemoryLog | showSettings | showConstant _
  | clearHistory | help =>
    cases h
    exact iff_of_false Bool.false_ne_true nofun
  | exit =>
    cases h
    exact iff_of_true rfl rfl

namespace Interpreter

theorem answer_running (i : Interpreter) (step : Calculator × Except Fault Reply) :
    (i.answer step).1.running = true ↔
      i.running = true ∧ ∀ r, step.2 = .ok r → r.exits = false := by
  obtain ⟨c, outcome⟩ := step
  cases outcome with
  | ok r => cases h : r.exits <;> simp [answer, stop, h]
  | error fault => simp [answer]

/-- What is read as anything but `exit` leaves the interpreter running, or stopped. -/
theorem follow_running (i : Interpreter) (r : Reading) :
    (i.follow r).1.running = true ↔ i.running = true ∧ r ≠ .instruction .exit := by
  cases r with
  | blank | refused fault => simp [follow]
  | instruction instruction =>
    simp only [follow, answer_running, ne_eq, Reading.instruction.injEq]
    refine and_congr_right fun _ => ⟨?_, fun hne reply hreply => ?_⟩
    · rintro h rfl
      exact absurd (h _ rfl) (by decide)
    · simpa using mt (Instruction.exits_of_perform hreply).mp hne

/-- **Only `exit` stops the interpreter, and a command is known only in ASCII letters.**  After a
line the interpreter runs exactly when it ran before and the line is not the one word `exit`, in
ASCII letters of either case; so no other line stops it and no line starts it.  And a word that a
line begins with is taken for a standard command exactly when it is the name of the command in ASCII
letters of either case, although it is looked up in the lower case of Unicode. -/
theorem only_exit_stops (c : Calculator) (strictness : Strictness) (running : Bool) :
    (∀ line : String,
      let i : Interpreter := { calculator := c, strictness, running }
      (i.submit line).1.running = true ↔ running = true ∧ ¬ SaysExit line) ∧
    ∀ (word : List Char) (command : Command),
      Catalogue.standard.find? (.ofList (Text.lowercase word)) = some command ↔
        command ∈ Command.standard ∧ String.ofList (Text.asciiLower word) = command.name := by
  refine ⟨fun line => ?_, fun word command => find?_lowercase_iff⟩
  intro i
  rw [submit_eq, follow_running]
  exact and_congr_right fun _ => not_congr reading_eq_exit_iff

/-- A capital stops the interpreter; an argument or an I with a dot does not. -/
example :
    let i : Interpreter := { calculator := { clock := .still ⟨0, 0⟩ }, running := true }
    (i.submit " eXit ").1.running = false ∧ (i.submit "exit 0").1.running = true ∧
      (i.submit "ex\u0130t").1.running = true := by
  decide +kernel

end Interpreter

end DeskCalculator
