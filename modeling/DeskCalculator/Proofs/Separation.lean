import DeskCalculator.Proofs.Atomicity
import DeskCalculator.Proofs.Ledger
import DeskCalculator.Proofs.Readings

/-!
# DeskCalculator.Proofs.Separation — the parts of a calculator do not interfere

A calculator has three parts: the work, which is the last result with the history, the memory, and
the settings.  Each command that does something belongs to one of them.  Two runs are compared, one
over some lines and one over those of them that belong to certain parts.

* `Separates`: a relation between calculators that calls of some parts keep when both sides make
  them, and that the other calls keep when only the first side makes them.
* `Interpreter.Alike.feed`, `Interpreter.Alike.outcomes`: the two runs then end related, and answer
  the lines of the parts alike.
* `parts_do_not_interfere`: the work depends on the lines of the work and the settings, the memory
  on its own lines, the settings on theirs, and lines that only show something or fail change
  nothing.
-/

namespace DeskCalculator

/-! ## Parts -/

/-- The parts of a calculator. -/
inductive Part
  /-- The last result and the history. -/
  | work
  | memory
  | settings
deriving DecidableEq

/-- The part that a call works on. -/
def Call.part : Call → Part
  | compute _ | chain _ _ | clearHistory => .work
  | access _ => .memory
  | setAngleUnit _ | setPrecision _ => .settings

/-- The part that an instruction works on, if it is not one that only shows something. -/
def Instruction.part? (i : Instruction) : Option Part := i.call?.map Call.part

/-- The part that the instructions of an action work on. -/
def Action.part? : Action → Option Part
  | unary _ | binary _ | chain _ => some .work
  | memoryStore | memoryAdd | memorySubtract => some .memory
  | setAngleUnit | setPrecision => some .settings
  | fixed i => i.part?

namespace Part

/-- The names of the commands of a part. -/
def commands : Part → List String
  | work => computingCommands.map Prod.fst ++ ["clear"]
  | memory => ["ms", "mr", "mc", "m+", "m-"]
  | settings => ["mode", "prec"]

/-- Whether a line names a command of the part. -/
def owns (part : Part) (line : String) : Bool :=
  match splitLine line with
  | some (name, _) => part.commands.contains name
  | none => false

/-- Whether a line names a command of one of some parts. -/
def anyOwns (parts : List Part) (line : String) : Bool := parts.any (·.owns line)

end Part

theorem standard_part (part : Part) : ∀ command ∈ Command.standard,
    part.commands.contains command.name ↔ command.action.part? = some part := by
  cases part <;> decide

theorem Action.part?_of_read {action : Action} {a : Arguments} {i : Instruction}
    (h : action.read a = .ok i) : i.part? = action.part? := by
  cases action with
  | unary f => obtain ⟨x, -, rfl⟩ := read_unary.mp h; rfl
  | binary f => obtain ⟨x, -, y, -, rfl⟩ := read_binary.mp h; rfl
  | chain op => obtain ⟨b, -, rfl⟩ := read_chain.mp h; rfl
  | setAngleUnit => cases h; rfl
  | fixed j => cases h; rfl
  | memoryStore | memoryAdd | memorySubtract | setPrecision =>
    obtain ⟨x, -, hx⟩ := bind_eq_ok.mp h
    cases hx
    rfl

/-- A line that is read as an instruction belongs to the part of the instruction and to no other. -/
theorem Part.owns_iff_of_reading {strictness : Strictness} {line : String} {i : Instruction}
    (h : Catalogue.standard.reading strictness line = .instruction i) (part : Part) :
    part.owns line ↔ i.part? = some part := by
  obtain ⟨name, words, command, hline, hmem, rfl, -, hread⟩ := exists_command_of_reading h
  rw [Action.part?_of_read hread, ← standard_part part command hmem]
  simp [owns, hline]

theorem Part.owns_iff_of_call? {strictness : Strictness} {line : String} {k : Call}
    (h : Catalogue.standard.call? strictness line = some k) (part : Part) :
    part.owns line ↔ k.part = part := by
  rw [Catalogue.call?_eq_reading] at h
  cases hread : Catalogue.standard.reading strictness line with
  | blank => rw [hread] at h; cases h
  | refused fault => rw [hread] at h; cases h
  | instruction i =>
    rw [hread] at h
    have hcall : i.call? = some k := h
    rw [owns_iff_of_reading hread, Instruction.part?, hcall]
    simp

theorem Part.anyOwns_iff_of_call? {strictness : Strictness} {line : String} {k : Call}
    (h : Catalogue.standard.call? strictness line = some k) (parts : List Part) :
    anyOwns parts line ↔ k.part ∈ parts := by
  simp only [anyOwns, List.any_eq_true, owns_iff_of_call? h]
  constructor
  · rintro ⟨part, hmem, rfl⟩
    exact hmem
  · intro hmem
    exact ⟨k.part, hmem, rfl⟩

/-! ## Two runs -/

/-- A relation between two calculators is kept when both make the same call of one of the parts, and
when the first alone makes a call of another part. -/
structure Separates (parts : List Part) (R : Calculator → Calculator → Prop) : Prop where
  kept {c c' : Calculator} {k : Call} (h : R c c') (hk : k.part ∈ parts) :
    R (c.apply k) (c'.apply k)
  skipped {c c' : Calculator} {k : Call} (h : R c c') (hk : k.part ∉ parts) : R (c.apply k) c'

/-- Related calculators answer the instructions of a part alike. -/
def AnswersAlike (part : Part) (R : Calculator → Calculator → Prop) : Prop :=
  ∀ (c c' : Calculator) (help : String) (i : Instruction), R c c' → i.part? = some part →
    (i.perform help c).2 = (i.perform help c').2

namespace Interpreter

/-- Two interpreters over the standard catalogue that read lines alike, with related calculators. -/
structure Alike (R : Calculator → Calculator → Prop) (i j : Interpreter) : Prop where
  left : i.catalogue = .standard
  right : j.catalogue = .standard
  strictness : i.strictness = j.strictness
  calculator : R i.calculator j.calculator

/-- The outcomes of some lines, each with its line. -/
def outcomes (i : Interpreter) : List String → List (String × Except Fault (Option Reply))
  | [] => []
  | line :: lines => (line, (i.submit line).2) :: (i.submit line).1.outcomes lines

variable {R : Calculator → Calculator → Prop} {parts : List Part} {part : Part} {i j : Interpreter}
  {line : String}

theorem Alike.kept (hR : Separates parts R) (h : Alike R i j) (hline : Part.anyOwns parts line) :
    Alike R (i.submit line).1 (j.submit line).1 := by
  refine ⟨by simp [h.left], by simp [h.right], by simp [h.strictness], ?_⟩
  rw [submit_calculator, submit_calculator, h.left, h.right, h.strictness]
  cases hcall : Catalogue.standard.call? j.strictness line with
  | none => exact h.calculator
  | some k => exact hR.kept h.calculator ((Part.anyOwns_iff_of_call? hcall parts).mp hline)

theorem Alike.skipped (hR : Separates parts R) (h : Alike R i j)
    (hline : ¬ Part.anyOwns parts line) :
    Alike R (i.submit line).1 j := by
  refine ⟨by simp [h.left], h.right, by simp [h.strictness], ?_⟩
  rw [submit_calculator, h.left]
  cases hcall : Catalogue.standard.call? i.strictness line with
  | none => exact h.calculator
  | some k =>
    exact hR.skipped h.calculator fun hk => hline ((Part.anyOwns_iff_of_call? hcall parts).mpr hk)

/-- A line of the part has the same outcome on both sides: it is refused on both, or read as the
same instruction. -/
theorem Alike.submit_snd (ha : AnswersAlike part R) (h : Alike R i j) (hline : part.owns line) :
    (i.submit line).2 = (j.submit line).2 := by
  rw [Interpreter.submit_snd, Interpreter.submit_snd, h.left, h.right, h.strictness]
  cases hread : Catalogue.standard.reading j.strictness line with
  | blank => rfl
  | refused fault => rfl
  | instruction instruction =>
    have hpart : instruction.part? = some part := (Part.owns_iff_of_reading hread part).mp hline
    simp only [Reading.outcome, ha _ _ Catalogue.standard.help instruction h.calculator hpart]

/-- **The run over all lines and the run over those of some parts end related.** -/
theorem Alike.feed (hR : Separates parts R) (h : Alike R i j) (lines : List String) :
    Alike R (i.feed lines) (j.feed (lines.filter (Part.anyOwns parts))) := by
  induction lines generalizing i j with
  | nil => exact h
  | cons line lines ih =>
    by_cases hline : Part.anyOwns parts line
    · rw [List.filter_cons_of_pos hline, feed_cons, feed_cons]
      exact ih (h.kept hR hline)
    · rw [List.filter_cons_of_neg hline, feed_cons]
      exact ih (h.skipped hR hline)

/-- **The lines of one of the parts have the same outcomes in both runs.** -/
theorem Alike.outcomes (hR : Separates parts R) (ha : AnswersAlike part R) (hpart : part ∈ parts)
    (h : Alike R i j) (lines : List String) :
    (i.outcomes lines).filter (fun o => part.owns o.1) =
      (j.outcomes (lines.filter (Part.anyOwns parts))).filter (fun o => part.owns o.1) := by
  induction lines generalizing i j with
  | nil => rfl
  | cons line lines ih =>
    by_cases hline : Part.anyOwns parts line
    · have hrest := ih (h.kept hR hline)
      rw [List.filter_cons_of_pos hline, Interpreter.outcomes, Interpreter.outcomes]
      by_cases hown : part.owns line
      · simp only [List.filter_cons_of_pos, hown, h.submit_snd ha hown, hrest]
      · simp [List.filter_cons_of_neg, hown, hrest]
    · have hown : ¬ part.owns line := fun hown =>
        hline (List.any_eq_true.mpr ⟨part, hpart, hown⟩)
      rw [List.filter_cons_of_neg hline, Interpreter.outcomes]
      simpa [hown] using ih (h.skipped hR hline)

end Interpreter

/-! ## Time -/

/-- A calculation with another time. -/
def Calculation.stamped (r : Calculation) (t : Instant) : Calculation := { r with time := t }

/-- A memory access with another time. -/
def MemoryAccess.stamped (a : MemoryAccess) (t : Instant) : MemoryAccess := { a with time := t }

/-- The view `f` of an entry does not tell one reading of the clock from another. -/
def Blind {α : Type} (stamped : α → Instant → α) (clock : Clock) (f : α → α) : Prop :=
  ∀ (a : α) (m n : Nat), f (stamped a (clock.reading m)) = f (stamped a (clock.reading n))

/-- Nothing needs to be hidden when the clock stands still. -/
theorem blind_still {α : Type} (stamped : α → Instant → α) (t : Instant) :
    Blind stamped (.still t) id := fun _ _ _ => rfl

/-! ## The three parts -/

namespace Calculator

variable {clock : Clock} {c c' : Calculator}

theorem Effect.clock_eq {k : Call} (h : c.Effect k c') : c'.clock = c.clock := by
  cases h with
  | computed asked value => rfl
  | accessed request => rfl
  | configured asked => rfl
  | cleared => rfl
  | refused reason => rfl

/-- Only a call that asks for settings touches them. -/
theorem Effect.settings_eq {k : Call} (h : c.Effect k c') (hk : k.settings? c.settings = none) :
    c'.settings = c.settings := by
  cases h with
  | computed asked value => rfl
  | accessed request => rfl
  | configured asked => rw [hk] at asked; cases asked
  | cleared => rfl
  | refused reason => rfl

/-- Two calculators with the same work, as far as the view `f` of the history tells, and with the
same settings, on which the work to come depends. -/
structure SameWork (clock : Clock) (f : Calculation → Calculation) (c c' : Calculator) : Prop where
  left : c.clock = clock
  right : c'.clock = clock
  settings : c.settings = c'.settings
  last : c.lastResult = c'.lastResult
  history : c.history.map f = c'.history.map f

/-- Two calculators with the same memory, as far as the view `g` of the log tells. -/
structure SameMemory (clock : Clock) (g : MemoryAccess → MemoryAccess) (c c' : Calculator) :
    Prop where
  left : c.clock = clock
  right : c'.clock = clock
  value : c.memory.value = c'.memory.value
  log : c.memory.log.map g = c'.memory.log.map g

section

variable {f : Calculation → Calculation} (hf : Blind Calculation.stamped clock f)
include hf

theorem SameWork.compute (h : SameWork clock f c c') (x : Computation) :
    SameWork clock f (c.compute x).1 (c'.compute x).1 := by
  have hsettings := h.settings
  cases hx : x.result c.settings with
  | error fault =>
    have hx' : x.result c'.settings = .error fault := hsettings ▸ hx
    rw [compute_of_error hx, compute_of_error hx']
    exact h
  | ok result =>
    have hx' : x.result c'.settings = .ok result := hsettings ▸ hx
    have hentry : f (c.entry x result) = f (c'.entry x result) := by
      have hblind := hf (c.entry x result) c.readings c'.readings
      simpa [entry, now, Calculation.stamped, h.left, h.right] using hblind
    rw [compute_of_ok hx, compute_of_ok hx']
    refine ⟨h.left, h.right, hsettings, rfl, ?_⟩
    simp [record, h.history, hentry]

/-- The work is separate: it depends on the calls of the work and of the settings. -/
theorem separates_work : Separates [.work, .settings] (SameWork clock f) where
  kept {c c' k} h hk := by
    cases k with
    | compute x => exact h.compute hf x
    | chain op b =>
      have hx := h.compute hf (.binary op.operation c.lastResult b)
      simp only [apply, chain, ← h.last]
      exact hx
    | clearHistory => exact ⟨h.left, h.right, h.settings, rfl, rfl⟩
    | setAngleUnit text =>
      simp only [apply, setAngleUnit]
      cases AngleUnit.ofName text with
      | ok unit => exact ⟨h.left, h.right, by simp [h.settings], h.last, h.history⟩
      | error fault => exact h
    | setPrecision n =>
      simp only [apply, setPrecision]
      cases Settings.checkPrecision n with
      | ok precision => exact ⟨h.left, h.right, by simp [h.settings], h.last, h.history⟩
      | error fault => exact h
    | access request => simp [Call.part] at hk
  skipped {c c' k} h hk := by
    cases k with
    | access request => exact ⟨h.left, h.right, h.settings, h.last, h.history⟩
    | compute _ | chain _ _ | clearHistory | setAngleUnit _ | setPrecision _ =>
      simp [Call.part] at hk

end

theorem answersAlike_work (f : Calculation → Calculation) :
    AnswersAlike .work (SameWork clock f) := by
  intro c c' help i h hpart
  cases i with
  | compute x => simp [Instruction.perform, Instruction.reply, compute_snd, h.settings]
  | chain op b =>
    simp [Instruction.perform, Instruction.reply, chain, compute_snd, h.settings, h.last]
  | clearHistory => rfl
  | memory _ | showLast | showHistory | showMemoryLog | showSettings | setAngleUnit _
  | setPrecision _ | showConstant _ | help | exit => cases hpart

theorem SameMemory.access {g : MemoryAccess → MemoryAccess}
    (hg : Blind MemoryAccess.stamped clock g) (h : SameMemory clock g c c')
    (request : MemoryRequest) : SameMemory clock g (c.access request).1 (c'.access request).1 := by
  have hvalue := h.value
  have hentry := hg
    { action := request.action
      value := request.operand c'.memory.value
      old := if request.action = .retrieve then none else some c'.memory.value
      new := request.action.after c'.memory.value (request.operand c'.memory.value)
      time := c.now } c.readings c'.readings
  refine ⟨h.left, h.right, ?_, ?_⟩
  · simp [Calculator.access, Memory.access, hvalue]
  · simpa [Calculator.access, Memory.access, MemoryAccess.stamped, now, h.left, h.right, h.log,
      hvalue] using hentry

/-- The memory is separate: it depends on its own calls alone. -/
theorem separates_memory {g : MemoryAccess → MemoryAccess}
    (hg : Blind MemoryAccess.stamped clock g) : Separates [.memory] (SameMemory clock g) where
  kept {c c' k} h hk := by
    cases k with
    | access request => exact h.access hg request
    | compute _ | chain _ _ | clearHistory | setAngleUnit _ | setPrecision _ =>
      simp [Call.part] at hk
  skipped {c c' k} h hk := by
    have hrequest : k.request? = none := by
      cases k with
      | access request => simp [Call.part] at hk
      | compute _ | chain _ _ | clearHistory | setAngleUnit _ | setPrecision _ => rfl
    have hmemory : (c.apply k).memory = c.memory := (c.apply_effect k).memory_eq hrequest
    have hclock : (c.apply k).clock = c.clock := (c.apply_effect k).clock_eq
    exact ⟨hclock.trans h.left, h.right, by rw [hmemory, h.value], by rw [hmemory, h.log]⟩

theorem answersAlike_memory (g : MemoryAccess → MemoryAccess) :
    AnswersAlike .memory (SameMemory clock g) := by
  intro c c' help i h hpart
  cases i with
  | memory request =>
    have hanswer : (c.access request).2 = (c'.access request).2 := by
      simp [access, Memory.access, h.value]
    simp [Instruction.perform, Instruction.say, hanswer]
  | compute _ | chain _ _ | clearHistory | showLast | showHistory | showMemoryLog | showSettings
  | setAngleUnit _ | setPrecision _ | showConstant _ | help | exit => cases hpart

/-- The settings are separate: they depend on their own calls alone. -/
theorem separates_settings : Separates [.settings] (fun c c' => c.settings = c'.settings) where
  kept {c c' k} h hk := by
    cases k with
    | setAngleUnit text =>
      simp only [apply, setAngleUnit]
      cases AngleUnit.ofName text with
      | ok unit => simp [h]
      | error fault => exact h
    | setPrecision n =>
      simp only [apply, setPrecision]
      cases Settings.checkPrecision n with
      | ok precision => simp [h]
      | error fault => exact h
    | compute _ | chain _ _ | clearHistory | access _ => simp [Call.part] at hk
  skipped {c c' k} h hk := by
    have hsettings : k.settings? c.settings = none := by
      cases k with
      | setAngleUnit _ | setPrecision _ => simp [Call.part] at hk
      | compute _ | chain _ _ | clearHistory | access _ => rfl
    exact ((c.apply_effect k).settings_eq hsettings).trans h

end Calculator

/-! ## Lines that change nothing -/

/-- The commands that only show something. -/
def showingCommands : List String := ["last", "hist", "mhist", "settings", "pi", "e", "help"]

/-- Whether an instruction only shows something. -/
def Instruction.shows : Instruction → Bool
  | showLast | showHistory | showMemoryLog | showSettings | showConstant _ | help => true
  | compute _ | chain _ _ | memory _ | setAngleUnit _ | setPrecision _ | clearHistory
  | exit => false

/-- Whether an action makes an instruction that only shows something. -/
def Action.shows : Action → Bool
  | fixed i => i.shows
  | unary _ | binary _ | chain _ | memoryStore | memoryAdd | memorySubtract | setAngleUnit
  | setPrecision => false

theorem standard_shows : ∀ command ∈ Command.standard, showingCommands.contains command.name →
    command.action.shows := by
  decide

theorem Action.shows_of_read {action : Action} {a : Arguments} {i : Instruction}
    (h : action.read a = .ok i) (hshows : action.shows) : i.shows := by
  cases action with
  | fixed j => cases h; exact hshows
  | unary _ | binary _ | chain _ | memoryStore | memoryAdd | memorySubtract | setAngleUnit
  | setPrecision => cases hshows

/-- A line that is blank, or names no command, or one that only shows something, or that fails. -/
inductive Idle (i : Interpreter) (line : String) : Prop
  | blank (words : splitLine line = none)
  | unknown {name : String} {words : List String} (words : splitLine line = some (name, words))
      (unlisted : ∀ command ∈ Command.standard, command.name ≠ name)
  | shows {name : String} {words : List String} (words : splitLine line = some (name, words))
      (listed : showingCommands.contains name)
  | fails {fault : Fault} (outcome : (i.submit line).2 = .error fault)

/-- `Thinned i lines rest`: the lines `rest` are `lines` without some of those that are idle where
they stand. -/
inductive Thinned : Interpreter → List String → List String → Prop
  | nil (i : Interpreter) : Thinned i [] []
  | keep {i : Interpreter} {line : String} {lines rest : List String}
      (more : Thinned (i.submit line).1 lines rest) : Thinned i (line :: lines) (line :: rest)
  | drop {i : Interpreter} {line : String} {lines rest : List String} (idle : Idle i line)
      (more : Thinned (i.submit line).1 lines rest) : Thinned i (line :: lines) rest

namespace Interpreter

variable {i : Interpreter} {line : String}

theorem answer_of_shows {instruction : Instruction} (h : instruction.shows) :
    (i.answer (instruction.perform i.catalogue.help i.calculator)).1 = i := by
  cases instruction with
  | showLast | showHistory | showMemoryLog | showSettings | showConstant _ | help => rfl
  | compute _ | chain _ _ | memory _ | setAngleUnit _ | setPrecision _ | clearHistory
  | exit => cases h

theorem submit_of_idle (hi : i.catalogue = .standard) (h : Idle i line) :
    (i.submit line).1 = i := by
  cases h with
  | fails outcome => exact i.submit_atomic line _ outcome
  | blank words => rw [submit_eq, Catalogue.reading_of_blank words]; rfl
  | @unknown name _ words unlisted =>
    have hfind : Catalogue.standard.find? name = none := by
      rw [Option.eq_none_iff_forall_not_mem]
      intro command hfind
      obtain ⟨hmem, hname⟩ := mem_standard_of_find? hfind
      exact unlisted command hmem hname
    rw [submit_eq, hi, Catalogue.reading_of_unknown words hfind]
    rfl
  | shows words listed =>
    rw [submit_eq, hi]
    cases hread : Catalogue.standard.reading i.strictness line with
    | blank => rfl
    | refused fault => rfl
    | instruction instruction =>
      obtain ⟨_, _, command, hline, hmem, rfl, -, haction⟩ := exists_command_of_reading hread
      rw [words] at hline
      cases hline
      exact answer_of_shows (Action.shows_of_read haction (standard_shows command hmem listed))

/-- Idle lines can be left out. -/
theorem feed_of_thinned (hi : i.catalogue = .standard) {lines rest : List String}
    (h : Thinned i lines rest) : i.feed rest = i.feed lines := by
  induction h with
  | nil i => rfl
  | @keep i line lines rest more ih =>
    rw [feed_cons, feed_cons, ih (by simp [hi])]
  | @drop i line lines rest idle more ih =>
    have hsame := submit_of_idle hi idle
    rw [feed_cons, ← ih (by simp [hi]), hsame]

/-! ## The whole run and the runs of the parts -/

theorem alike_self (hi : i.catalogue = .standard) {R : Calculator → Calculator → Prop}
    (hR : R i.calculator i.calculator) : Alike R i i :=
  ⟨hi, hi, rfl, hR⟩

theorem alike_work (hi : i.catalogue = .standard) (f : Calculation → Calculation) :
    Alike (Calculator.SameWork i.calculator.clock f) i i :=
  alike_self hi ⟨rfl, rfl, rfl, rfl, rfl⟩

theorem alike_memory (hi : i.catalogue = .standard) (g : MemoryAccess → MemoryAccess) :
    Alike (Calculator.SameMemory i.calculator.clock g) i i :=
  alike_self hi ⟨rfl, rfl, rfl, rfl⟩

/-- **The parts of a calculator do not interfere.**  Lines are carried out over the standard
catalogue, from any calculator.  The last result, the history, and the outcome of every line of the
work are those of the run over the lines of the work and of the settings; the memory with its log,
and the outcome of every line of the memory, are those of the run over the lines of the memory; the
settings are those of the run over the lines of the settings.  The times of the entries are left out
here, and are the same too when the clock stands still.  Lines that are blank, unknown, only show
something or fail where they stand may be put in or left out anywhere. -/
theorem parts_do_not_interfere (hi : i.catalogue = .standard) (lines : List String) :
    let all := i.feed lines
    let workLines := lines.filter (Part.anyOwns [.work, .settings])
    let memoryLines := lines.filter (Part.anyOwns [.memory])
    let settingsLines := lines.filter (Part.anyOwns [.settings])
    let work := (i.feed workLines).calculator
    let memory := (i.feed memoryLines).calculator.memory
    (all.calculator.lastResult = work.lastResult ∧
      (∀ t, all.calculator.history.map (·.stamped t) = work.history.map (·.stamped t)) ∧
      (∀ t, i.calculator.clock = .still t → all.calculator.history = work.history) ∧
      (i.outcomes lines).filter (fun o => Part.work.owns o.1) =
        (i.outcomes workLines).filter (fun o => Part.work.owns o.1)) ∧
    (all.calculator.memory.value = memory.value ∧
      (∀ t, all.calculator.memory.log.map (·.stamped t) = memory.log.map (·.stamped t)) ∧
      (∀ t, i.calculator.clock = .still t → all.calculator.memory.log = memory.log) ∧
      (i.outcomes lines).filter (fun o => Part.memory.owns o.1) =
        (i.outcomes memoryLines).filter (fun o => Part.memory.owns o.1)) ∧
    all.calculator.settings = (i.feed settingsLines).calculator.settings ∧
    ∀ rest, Thinned i lines rest → (i.feed rest).calculator = all.calculator := by
  intro all workLines memoryLines settingsLines work memory
  have hwork {f : Calculation → Calculation} (hf : Blind Calculation.stamped i.calculator.clock f) :
      Calculator.SameWork i.calculator.clock f all.calculator work :=
    ((alike_work hi f).feed (Calculator.separates_work hf) lines).calculator
  have hmemory {g : MemoryAccess → MemoryAccess}
      (hg : Blind MemoryAccess.stamped i.calculator.clock g) :
      Calculator.SameMemory i.calculator.clock g all.calculator (i.feed memoryLines).calculator :=
    ((alike_memory hi g).feed (Calculator.separates_memory hg) lines).calculator
  -- a view that gives every entry the same time tells no readings apart
  have hwork_stamped (t : Instant) := hwork (f := (·.stamped t)) fun _ _ _ => rfl
  have hmemory_stamped (t : Instant) := hmemory (g := (·.stamped t)) fun _ _ _ => rfl
  refine ⟨⟨(hwork_stamped ⟨0, 0⟩).last, fun t => (hwork_stamped t).history, ?_, ?_⟩,
    ⟨(hmemory_stamped ⟨0, 0⟩).value, fun t => (hmemory_stamped t).log, ?_, ?_⟩, ?_, ?_⟩
  · intro t hclock
    have hblind : Blind Calculation.stamped i.calculator.clock id := hclock ▸ blind_still _ t
    simpa using (hwork hblind).history
  · exact (alike_work hi (·.stamped ⟨0, 0⟩)).outcomes
      (Calculator.separates_work fun _ _ _ => rfl) (Calculator.answersAlike_work _) (by simp) lines
  · intro t hclock
    have hblind : Blind MemoryAccess.stamped i.calculator.clock id := hclock ▸ blind_still _ t
    simpa using (hmemory hblind).log
  · exact (alike_memory hi (·.stamped ⟨0, 0⟩)).outcomes
      (Calculator.separates_memory fun _ _ _ => rfl) (Calculator.answersAlike_memory _) (by simp)
      lines
  · have hself : Alike (fun c c' => c.settings = c'.settings) i i := alike_self hi rfl
    exact (hself.feed Calculator.separates_settings lines).calculator
  · intro rest hthinned
    rw [feed_of_thinned hi hthinned]

/-- Lines of the three parts with a line that shows something, one that is unknown, and two that
fail between them. -/
def mingledLines : List String :=
  ["add 1 2", "ms 5", "prec 1", "last", "sin 45", "m+ x", "div 1 0", "boo", "mr 1", "c* 2", "mr"]

/-- A fresh interpreter that refuses words that are no numbers. -/
def mingledStart : Interpreter :=
  { calculator := { clock := .still ⟨0, 0⟩ }, strictness := .strict }

theorem mingledLines_apart :
    mingledStart.catalogue = .standard ∧
      mingledLines.filter (Part.anyOwns [.work, .settings]) =
        ["add 1 2", "prec 1", "sin 45", "div 1 0", "c* 2"] ∧
      (mingledStart.feed mingledLines).calculator.history.map (·.result) = [3, 0.7, 1.4] ∧
      (mingledStart.feed mingledLines).calculator.history =
        (mingledStart.feed ["add 1 2", "prec 1", "sin 45", "div 1 0", "c* 2"]).calculator.history ∧
      (mingledStart.feed mingledLines).calculator.memory.log =
        (mingledStart.feed ["ms 5", "m+ x", "mr 1", "mr"]).calculator.memory.log := by
  have hwork : mingledLines.filter (Part.anyOwns [.work, .settings]) =
      ["add 1 2", "prec 1", "sin 45", "div 1 0", "c* 2"] := by decide +kernel
  have hmemory : mingledLines.filter (Part.anyOwns [.memory]) = ["ms 5", "m+ x", "mr 1", "mr"] := by
    decide +kernel
  have hparts := parts_do_not_interfere (i := mingledStart) rfl mingledLines
  simp only [hwork, hmemory] at hparts
  exact ⟨rfl, hwork, by decide +kernel, hparts.1.2.2.1 _ rfl, hparts.2.1.2.2.1 _ rfl⟩

end Interpreter

end DeskCalculator
