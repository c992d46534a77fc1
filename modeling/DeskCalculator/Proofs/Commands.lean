import Mathlib.Data.List.Basic
import DeskCalculator.Command.Standard
import DeskCalculator.Proofs.Lines
import DeskCalculator.Proofs.Registration

/-!
# DeskCalculator.Proofs.Commands — which lines ask for a computation

`computingCommands` lists the commands of the standard catalogue that carry out an operation, under
the names by which the user calls them; these are not the tags under which the operations are
recorded.  `Asks` says which computation a line with such a command asks for: its operands are the
numbers of the words that follow the name, in their order, and a chain command puts the last result
before its one word.

* `asks_iff`: the calls of lines over the standard catalogue ask for these computations and no
  others.
* `splitLine_of_clears`: the line `clear` alone empties the history.
-/

namespace DeskCalculator

/-- The number of arguments that an action reads. -/
def Action.arity : Action → Nat
  | unary _ | chain _ | memoryStore | memoryAdd | memorySubtract | setAngleUnit | setPrecision => 1
  | binary _ => 2
  | fixed _ => 0

/-- The commands that carry out an operation. -/
def computingCommands : List (String × Action) :=
  [("add", .binary .add), ("sub", .binary .subtract), ("mul", .binary .multiply),
    ("div", .binary .divide), ("mod", .binary .modulus), ("pow", .binary .power),
    ("logb", .binary .logarithm),
    ("sqrt", .unary .squareRoot), ("cbrt", .unary .cubeRoot), ("fact", .unary .factorial),
    ("sin", .unary .sine), ("cos", .unary .cosine), ("tan", .unary .tangent),
    ("asin", .unary .arcsine), ("acos", .unary .arccosine), ("atan", .unary .arctangent),
    ("log", .unary .commonLog), ("ln", .unary .naturalLog),
    ("c+", .chain .add), ("c-", .chain .subtract), ("c*", .chain .multiply),
    ("c/", .chain .divide)]

/-- `Asks strictness last line x`: the line `line` asks for the computation `x`, when words are
taken for numbers by `strictness` and the last result is `last`. -/
inductive Asks (strictness : Strictness) (last : Float) (line : String) : Computation → Prop
  | unary {name word : String} {f : Unary} {x : Float}
      (words : splitLine line = some (name, [word]))
      (command : (name, .unary f) ∈ computingCommands)
      (operand : strictness.number word = .ok x) : Asks strictness last line (.unary f x)
  | binary {name first second : String} {f : Binary} {a b : Float}
      (words : splitLine line = some (name, [first, second]))
      (command : (name, .binary f) ∈ computingCommands)
      (left : strictness.number first = .ok a) (right : strictness.number second = .ok b) :
      Asks strictness last line (.binary f a b)
  | chain {name word : String} {op : Chain} {b : Float}
      (words : splitLine line = some (name, [word]))
      (command : (name, .chain op) ∈ computingCommands)
      (operand : strictness.number word = .ok b) :
      Asks strictness last line (.binary op.operation last b)

/-! ## The standard catalogue -/

theorem standard_arity :
    ∀ command ∈ Command.standard, command.arity = command.action.arity := by
  decide

/-- Whether an instruction carries out an operation. -/
def Instruction.computes : Instruction → Bool
  | compute _ | chain _ _ => true
  | memory _ | showLast | showHistory | showMemoryLog | showSettings | setAngleUnit _
  | setPrecision _ | showConstant _ | clearHistory | help | exit => false

/-- Whether an action carries out an operation. -/
def Action.computes : Action → Bool
  | unary _ | binary _ | chain _ => true
  | memoryStore | memoryAdd | memorySubtract | setAngleUnit | setPrecision => false
  | fixed i => i.computes

theorem standard_computes : ∀ command ∈ Command.standard, command.action.computes →
    (command.name, command.action) ∈ computingCommands := by
  decide

theorem computingCommands_find? : ∀ p ∈ computingCommands,
    (Catalogue.standard.find? p.1).map (fun command => (command.arity, command.action)) =
      some (p.2.arity, p.2) := by
  decide

theorem computingCommands_arity_pos : ∀ p ∈ computingCommands, 0 < p.2.arity := by
  decide

/-- A command that is listed is known under its name, with its number of arguments. -/
theorem find?_of_listed {name : String} {action : Action} (h : (name, action) ∈ computingCommands) :
    ∃ command, Catalogue.standard.find? name = some command ∧ command.arity = action.arity ∧
      command.action = action := by
  have hfind := computingCommands_find? _ h
  rw [Option.map_eq_some_iff] at hfind
  obtain ⟨command, hcommand, hparts⟩ := hfind
  rw [Prod.mk.injEq] at hparts
  exact ⟨command, hcommand, hparts⟩

theorem mem_standard_of_find? {name : String} {command : Command}
    (h : Catalogue.standard.find? name = some command) :
    command ∈ Command.standard ∧ command.name = name :=
  (Catalogue.indexed_ofList Command.standard).find?_eq_some.mp h

/-- Every standard command is known under its name. -/
theorem find?_of_mem {command : Command} (h : command ∈ Command.standard) :
    Catalogue.standard.find? command.name = some command := by
  have hall : Command.standard.map (fun command => Catalogue.standard.find? command.name) =
      Command.standard.map some := rfl
  exact List.map_inj_left.mp hall command h

/-! ## Reading the arguments -/

/-- A step in two parts has a result when both parts have one. -/
theorem bind_eq_ok {ε α β : Type} {step : Except ε α} {next : α → Except ε β} {b : β} :
    step >>= next = .ok b ↔ ∃ a, step = .ok a ∧ next a = .ok b := by
  cases step with
  | ok a =>
    constructor
    · intro h
      exact ⟨a, rfl, h⟩
    · rintro ⟨a', ha, h⟩
      cases ha
      exact h
  | error fault =>
    constructor
    · intro h
      cases h
    · rintro ⟨a, ha, -⟩
      cases ha

namespace Action

variable {a : Arguments} {i : Instruction} {action : Action}

theorem read_unary {f : Unary} :
    (unary f).read a = .ok i ↔ ∃ x, a.number 0 = .ok x ∧ .compute (.unary f x) = i := by
  simp only [read, bind_eq_ok, pure, Except.pure, Except.ok.injEq]

theorem read_binary {f : Binary} :
    (binary f).read a = .ok i ↔
      ∃ x, a.number 0 = .ok x ∧ ∃ y, a.number 1 = .ok y ∧ .compute (.binary f x y) = i := by
  simp only [read, bind_eq_ok, pure, Except.pure, Except.ok.injEq]

theorem read_chain {op : Chain} :
    (chain op).read a = .ok i ↔ ∃ b, a.number 0 = .ok b ∧ .chain op b = i := by
  simp only [read, bind_eq_ok, pure, Except.pure, Except.ok.injEq]

theorem computes_of_read (hread : action.read a = .ok i) (hi : i.computes) : action.computes := by
  cases action with
  | unary f => rfl
  | binary f => rfl
  | chain op => rfl
  | fixed j => cases hread; exact hi
  | setAngleUnit => cases hread; cases hi
  | memoryStore | memoryAdd | memorySubtract | setPrecision =>
    obtain ⟨x, -, hx⟩ := bind_eq_ok.mp hread
    cases hx
    cases hi

end Action

/-! ## The calls of computing lines -/

theorem Command.call?_of_read {command : Command} {a : Arguments} {i : Instruction}
    (harity : a.words.length = command.arity) (hread : command.action.read a = .ok i) :
    command.call? a = i.call? := by
  unfold Command.call?
  rw [if_neg (not_not_intro harity), hread]

theorem Command.call?_eq_some {command : Command} {a : Arguments} {k : Call}
    (h : command.call? a = some k) :
    a.words.length = command.arity ∧ ∃ i, command.action.read a = .ok i ∧ i.call? = some k := by
  rcases command.invoke_cases a with ⟨fault, hcall, -⟩ | ⟨i, harity, hread, hcall, -⟩
  · rw [hcall] at h
    cases h
  · rw [hcall] at h
    exact ⟨harity, i, hread, h⟩

/-- A line with the name of a listed command and as many words as it takes makes the call that its
action reads from them. -/
theorem call?_of_listed {strictness : Strictness} {line name : String} {words : List String}
    {action : Action} {i : Instruction} (hline : splitLine line = some (name, words))
    (listed : (name, action) ∈ computingCommands) (harity : words.length = action.arity)
    (hread : action.read ⟨words, strictness⟩ = .ok i) :
    Catalogue.standard.call? strictness line = i.call? := by
  obtain ⟨command, hfind, hcommand, rfl⟩ := find?_of_listed listed
  unfold Catalogue.call?
  rw [hline]
  simp only [hfind, Option.bind_some]
  exact Command.call?_of_read (harity.trans hcommand.symm) hread

section

variable {strictness : Strictness} {last : Float} {line : String} {x : Computation}

theorem Instruction.computes_of_call? {i : Instruction} {k : Call} (hi : i.call? = some k)
    (hx : k.computation? last = some x) : i.computes := by
  cases i with
  | compute y => rfl
  | chain op b => rfl
  | memory _ | setAngleUnit _ | setPrecision _ | clearHistory => cases hi; cases hx
  | showLast | showHistory | showMemoryLog | showSettings | showConstant _ | help | exit => cases hi

/-- A line that makes a call names one of the standard commands, which makes it. -/
theorem exists_command_of_call? {k : Call}
    (h : Catalogue.standard.call? strictness line = some k) :
    ∃ name words command, splitLine line = some (name, words) ∧ command ∈ Command.standard ∧
      command.name = name ∧ command.call? ⟨words, strictness⟩ = some k := by
  unfold Catalogue.call? at h
  cases hline : splitLine line with
  | none => rw [hline] at h; cases h
  | some parts =>
    obtain ⟨name, words⟩ := parts
    rw [hline] at h
    obtain ⟨command, hfind, hcall⟩ := Option.bind_eq_some_iff.mp h
    obtain ⟨hmem, hname⟩ := mem_standard_of_find? hfind
    exact ⟨name, words, command, rfl, hmem, hname, hcall⟩

theorem Asks.exists_call (h : Asks strictness last line x) :
    ∃ k, Catalogue.standard.call? strictness line = some k ∧ k.computation? last = some x := by
  cases h with
  | unary words command operand =>
    exact ⟨_, call?_of_listed words command rfl (Action.read_unary.mpr ⟨_, operand, rfl⟩), rfl⟩
  | binary words command left right =>
    exact ⟨_, call?_of_listed words command rfl
      (Action.read_binary.mpr ⟨_, left, _, right, rfl⟩), rfl⟩
  | chain words command operand =>
    exact ⟨_, call?_of_listed words command rfl (Action.read_chain.mpr ⟨_, operand, rfl⟩), rfl⟩

theorem asks_of_call {k : Call} (hk : Catalogue.standard.call? strictness line = some k)
    (hx : k.computation? last = some x) : Asks strictness last line x := by
  obtain ⟨name, words, command, hline, hmem, rfl, hcall⟩ := exists_command_of_call? hk
  obtain ⟨hwords, i, hread, hi⟩ := Command.call?_eq_some hcall
  rw [standard_arity command hmem] at hwords
  have hcomputes : command.action.computes :=
    Action.computes_of_read hread (Instruction.computes_of_call? hi hx)
  have hlisted := standard_computes command hmem hcomputes
  cases haction : command.action with
  | unary f =>
    rw [haction] at hwords hread hlisted
    obtain ⟨word, rfl⟩ := List.length_eq_one_iff.mp hwords
    obtain ⟨y, hy, rfl⟩ := Action.read_unary.mp hread
    cases hi
    cases hx
    exact .unary hline hlisted hy
  | binary f =>
    rw [haction] at hwords hread hlisted
    obtain ⟨first, second, rfl⟩ := List.length_eq_two.mp hwords
    obtain ⟨y, hy, z, hz, rfl⟩ := Action.read_binary.mp hread
    cases hi
    cases hx
    exact .binary hline hlisted hy hz
  | chain op =>
    rw [haction] at hwords hread hlisted
    obtain ⟨word, rfl⟩ := List.length_eq_one_iff.mp hwords
    obtain ⟨b, hb, rfl⟩ := Action.read_chain.mp hread
    cases hi
    cases hx
    exact .chain hline hlisted hb
  | fixed j =>
    -- the listed commands all take arguments, and this one takes none
    rw [haction] at hlisted
    exact absurd (computingCommands_arity_pos _ hlisted) (Nat.lt_irrefl 0)
  | memoryStore | memoryAdd | memorySubtract | setAngleUnit | setPrecision =>
    rw [haction] at hcomputes
    cases hcomputes

/-- **The lines that ask for a computation** are those whose call over the standard catalogue asks
for it. -/
theorem asks_iff : Asks strictness last line x ↔
    ∃ k, Catalogue.standard.call? strictness line = some k ∧ k.computation? last = some x :=
  ⟨Asks.exists_call, fun ⟨_, hk, hx⟩ => asks_of_call hk hx⟩

/-! ## Commands that read no argument -/

/-- Whether an instruction has something in it that an argument says. -/
def Instruction.hasOperands : Instruction → Bool
  | compute _ | chain _ _ | setAngleUnit _ | setPrecision _ => true
  | memory (.store _) | memory (.add _) | memory (.subtract _) => true
  | memory .retrieve | memory .clear | showLast | showHistory | showMemoryLog | showSettings
  | showConstant _ | clearHistory | help | exit => false

theorem Action.eq_fixed_of_read {action : Action} {a : Arguments} {i : Instruction}
    (h : action.read a = .ok i) (hi : i.hasOperands = false) : action = .fixed i := by
  cases action with
  | fixed j => cases h; rfl
  | setAngleUnit => cases h; cases hi
  | binary f =>
    obtain ⟨y, -, z, -, rfl⟩ := read_binary.mp h
    cases hi
  | unary _ | chain _ | memoryStore | memoryAdd | memorySubtract | setPrecision =>
    obtain ⟨y, -, hy⟩ := bind_eq_ok.mp h
    cases hy
    cases hi

/-- An instruction that no argument says anything of is given by a name alone. -/
theorem fixed_of_read {command : Command} {words : List String} {i : Instruction}
    (hmem : command ∈ Command.standard) (harity : words.length = command.arity)
    (hread : command.action.read ⟨words, strictness⟩ = .ok i) (hi : i.hasOperands = false) :
    command.action = .fixed i ∧ words = [] := by
  have haction := Action.eq_fixed_of_read hread hi
  rw [standard_arity command hmem, haction] at harity
  exact ⟨haction, List.eq_nil_of_length_eq_zero harity⟩

/-! ## The line that empties the history -/

theorem standard_clears : ∀ command ∈ Command.standard,
    command.action = .fixed .clearHistory → command.name = "clear" := by
  decide

/-- **The line that empties the history** is the word `clear` alone. -/
theorem splitLine_of_clears (h : Catalogue.standard.call? strictness line = some .clearHistory) :
    splitLine line = some ("clear", []) := by
  obtain ⟨name, words, command, hline, hmem, hname, hcall⟩ := exists_command_of_call? h
  obtain ⟨hwords, i, hread, hi⟩ := Command.call?_eq_some hcall
  obtain rfl : i = .clearHistory := by
    cases i <;> cases hi
    rfl
  obtain ⟨haction, rfl⟩ := fixed_of_read hmem hwords hread rfl
  rw [hline, ← hname, standard_clears command hmem haction]

end

end DeskCalculator
