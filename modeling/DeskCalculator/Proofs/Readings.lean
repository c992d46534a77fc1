import DeskCalculator.Proofs.Commands

/-!
# DeskCalculator.Proofs.Readings — what a line is read as

A line is read before anything is done: it is blank, or it is refused, or it is an instruction.  The
reading depends on the catalogue and the strictness alone, not on the calculator, so two calculators
that are given the same line differ only in how they perform one instruction.

* `submit_eq`: to carry out a line is to follow its reading.
* `submit_snd`: the outcome of a line, from its reading and the calculator.
-/

namespace DeskCalculator

/-- What a line is read as. -/
inductive Reading
  | blank
  | refused (fault : Fault)
  | instruction (i : Instruction)

/-- What a command with some arguments is read as. -/
def Command.reading (command : Command) (a : Arguments) : Reading :=
  if a.words.length ≠ command.arity then .refused (.wrongUsage command.usage)
  else
    match command.action.read a with
    | .ok i => .instruction i
    | .error fault => .refused fault

/-- What a line is read as. -/
def Catalogue.reading (catalogue : Catalogue) (strictness : Strictness) (line : String) : Reading :=
  match splitLine line with
  | none => .blank
  | some (name, words) =>
    match catalogue.find? name with
    | none => .refused (.unknownCommand name)
    | some command => command.reading ⟨words, strictness⟩

/-- The call that a reading makes. -/
def Reading.call? : Reading → Option Call
  | instruction i => i.call?
  | blank | refused _ => none

/-- The outcome of a reading on a calculator. -/
def Reading.outcome (help : String) (c : Calculator) : Reading → Except Fault (Option Reply)
  | blank => .ok none
  | refused fault => .error fault
  | instruction i => (i.perform help c).2.map some

/-! ## Commands -/

namespace Command

variable {command : Command} {a : Arguments}

theorem reading_of_length_ne (h : a.words.length ≠ command.arity) :
    command.reading a = .refused (.wrongUsage command.usage) := if_pos h

theorem reading_of_ok {i : Instruction} (harity : a.words.length = command.arity)
    (hread : command.action.read a = .ok i) : command.reading a = .instruction i := by
  simp [reading, harity, hread]

theorem reading_of_error {fault : Fault} (harity : a.words.length = command.arity)
    (hread : command.action.read a = .error fault) : command.reading a = .refused fault := by
  simp [reading, harity, hread]

theorem reading_eq_instruction {i : Instruction} (h : command.reading a = .instruction i) :
    a.words.length = command.arity ∧ command.action.read a = .ok i := by
  by_cases harity : a.words.length = command.arity
  · cases hread : command.action.read a with
    | ok j => rw [reading_of_ok harity hread] at h; cases h; exact ⟨harity, rfl⟩
    | error fault => rw [reading_of_error harity hread] at h; cases h
  · rw [reading_of_length_ne harity] at h
    cases h

end Command

/-! ## Lines -/

section

variable {catalogue : Catalogue} {strictness : Strictness} {line name : String}
  {words : List String}

theorem Catalogue.reading_of_blank (hline : splitLine line = none) :
    catalogue.reading strictness line = .blank := by
  simp [reading, hline]

theorem Catalogue.reading_of_unknown (hline : splitLine line = some (name, words))
    (hfind : catalogue.find? name = none) :
    catalogue.reading strictness line = .refused (.unknownCommand name) := by
  simp [reading, hline, hfind]

theorem Catalogue.reading_of_known (hline : splitLine line = some (name, words)) {command : Command}
    (hfind : catalogue.find? name = some command) :
    catalogue.reading strictness line = command.reading ⟨words, strictness⟩ := by
  simp [reading, hline, hfind]

/-- A line that is read as an instruction names one of the standard commands and has the arguments
that the command reads as the instruction. -/
theorem exists_command_of_reading {i : Instruction}
    (h : Catalogue.standard.reading strictness line = .instruction i) :
    ∃ name words command, splitLine line = some (name, words) ∧ command ∈ Command.standard ∧
      command.name = name ∧ words.length = command.arity ∧
      command.action.read ⟨words, strictness⟩ = .ok i := by
  cases hline : splitLine line with
  | none => rw [Catalogue.reading_of_blank hline] at h; cases h
  | some parts =>
    obtain ⟨name, words⟩ := parts
    cases hfind : Catalogue.standard.find? name with
    | none => rw [Catalogue.reading_of_unknown hline hfind] at h; cases h
    | some command =>
      rw [Catalogue.reading_of_known hline hfind] at h
      obtain ⟨harity, hread⟩ := Command.reading_eq_instruction h
      obtain ⟨hmem, hname⟩ := mem_standard_of_find? hfind
      exact ⟨name, words, command, rfl, hmem, hname, harity, hread⟩

end

theorem Catalogue.call?_eq_reading (catalogue : Catalogue) (strictness : Strictness)
    (line : String) :
    catalogue.call? strictness line = (catalogue.reading strictness line).call? := by
  unfold Catalogue.call? Catalogue.reading
  cases splitLine line with
  | none => rfl
  | some parts =>
    obtain ⟨name, words⟩ := parts
    cases hfind : catalogue.find? name with
    | none => simp [hfind, Reading.call?]
    | some command =>
      simp only [hfind, Option.bind_some]
      unfold Command.call? Command.reading
      split
      · rfl
      · cases command.action.read ⟨words, strictness⟩ <;> rfl

namespace Interpreter

/-- Does what a line was read as. -/
def follow (i : Interpreter) : Reading → Interpreter × Except Fault (Option Reply)
  | .blank => (i, .ok none)
  | .refused fault => (i, .error fault)
  | .instruction instruction =>
    i.answer (instruction.perform i.catalogue.help i.calculator)

/-- **To carry out a line is to follow its reading.** -/
theorem submit_eq (i : Interpreter) (line : String) :
    i.submit line = i.follow (i.catalogue.reading i.strictness line) := by
  unfold submit Catalogue.reading
  cases splitLine line with
  | none => rfl
  | some parts =>
    obtain ⟨name, words⟩ := parts
    cases hfind : i.catalogue.find? name with
    | none => simp [hfind, follow]
    | some command =>
      simp only [hfind]
      rw [Catalogue.invoke_eq]
      unfold Command.invoke Command.carryOut Action.perform Command.reading
      split
      · rfl
      · cases command.action.read ⟨words, i.strictness⟩ <;> rfl

theorem answer_snd (i : Interpreter) (step : Calculator × Except Fault Reply) :
    (i.answer step).2 = step.2.map some := by
  obtain ⟨c, outcome⟩ := step
  cases outcome <;> rfl

theorem follow_snd (i : Interpreter) (r : Reading) :
    (i.follow r).2 = r.outcome i.catalogue.help i.calculator := by
  cases r with
  | blank => rfl
  | refused fault => rfl
  | instruction instruction => exact i.answer_snd _

theorem submit_snd (i : Interpreter) (line : String) :
    (i.submit line).2 =
      (i.catalogue.reading i.strictness line).outcome i.catalogue.help i.calculator := by
  rw [submit_eq, follow_snd]

/-- A line that gives neither a reply nor a fault was blank, and nothing was done. -/
theorem submit_of_silent {i : Interpreter} {line : String} (h : (i.submit line).2 = .ok none) :
    (i.submit line).1 = i := by
  rw [submit_snd] at h
  rw [submit_eq]
  cases hread : i.catalogue.reading i.strictness line with
  | blank => rfl
  | refused fault => rfl
  | instruction instruction =>
    rw [hread, Reading.outcome] at h
    cases hperform : (instruction.perform i.catalogue.help i.calculator).2 with
    | ok reply => rw [hperform] at h; cases h
    | error fault => rw [hperform] at h; cases h

end Interpreter

end DeskCalculator
