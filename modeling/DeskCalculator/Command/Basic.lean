import DeskCalculator.Instruction
import DeskCalculator.Strictness

/-!
# DeskCalculator.Command.Basic — commands and their arguments

A command has a name, a number of arguments, a place in the help text, and something that it does.
What the calculator's own commands do is an action, which says how the arguments make an
instruction.  The number of arguments is checked before any of them is read; they are then read from
the left.  An argument that is read but not given is the empty word.
-/

namespace DeskCalculator

/-- The groups of commands in the help text. -/
inductive Category
  | basic
  | scientific
  | memory
  | chain
  | display
  | settings
  | constants
  | utility
deriving DecidableEq

namespace Category

/-- The groups in the order of the help text. -/
def all : List Category :=
  [basic, scientific, memory, chain, display, settings, constants, utility]

/-- The name of a group. -/
def name : Category → String
  | basic => "Basic"
  | scientific => "Scientific"
  | memory => "Memory"
  | chain => "Chain"
  | display => "Display"
  | settings => "Settings"
  | constants => "Constants"
  | utility => "Utility"

/-- The heading of a group. -/
def title : Category → String
  | basic => "Basic Operations"
  | scientific => "Scientific Operations"
  | memory => "Memory Operations"
  | chain => "Chain Operations"
  | display => "Display"
  | settings => "Settings"
  | constants => "Constants"
  | utility => "Utility"

end Category

/-- The words behind the name of a command, and how they are taken for numbers. -/
structure Arguments where
  words : List String
  strictness : Strictness := .lenient

namespace Arguments

/-- An argument as it was given; the empty word if it was not. -/
def raw (a : Arguments) (index : Nat) : String := a.words[index]?.getD ""

/-- An argument as a number. -/
def number (a : Arguments) (index : Nat) : Except Fault Float := a.strictness.number (a.raw index)

/-- An argument as the integer that asks for a precision. -/
def precision (a : Arguments) (index : Nat) : Except Fault Int :=
  a.strictness.integer .badPrecision (a.raw index)

end Arguments

/-- How the arguments of a command make an instruction. -/
inductive Action
  | unary (f : Unary)
  | binary (f : Binary)
  | chain (op : Chain)
  | memoryStore
  | memoryAdd
  | memorySubtract
  | setAngleUnit
  | setPrecision
  /-- The same instruction always; no argument is read. -/
  | fixed (i : Instruction)
deriving DecidableEq

/-- The instruction of an action with some arguments. -/
def Action.read (action : Action) (a : Arguments) : Except Fault Instruction :=
  match action with
  | unary f => do return .compute (.unary f (← a.number 0))
  | binary f => do
    let x ← a.number 0
    let y ← a.number 1
    return .compute (.binary f x y)
  | chain op => do return .chain op (← a.number 0)
  | memoryStore => do return .memory (.store (← a.number 0))
  | memoryAdd => do return .memory (.add (← a.number 0))
  | memorySubtract => do return .memory (.subtract (← a.number 0))
  | setAngleUnit => .ok (.setAngleUnit (a.raw 0))
  | setPrecision => do return .setPrecision (← a.precision 0)
  | fixed i => .ok i

/-- Carries out an action; `help` is the text that is shown when help is asked for. -/
def Action.perform (action : Action) (help : String) (a : Arguments) (c : Calculator) :
    Calculator × Except Fault Reply :=
  match action.read a with
  | .ok i => i.perform help c
  | .error fault => (c, .error fault)

/-- A command.  What it does is said by an `α`; of the calculator's own commands that is an
action. -/
structure Command (α : Type := Action) where
  name : String
  /-- The number of arguments. -/
  arity : Nat
  category : Category
  /-- The form in which it is given, with names for its arguments. -/
  usage : String
  description : String
  action : α

namespace Command

variable {α β : Type}

/-- A command that does something else, and is the same in all the rest. -/
def map (f : α → β) (command : Command α) : Command β where
  name := command.name
  arity := command.arity
  category := command.category
  usage := command.usage
  description := command.description
  action := f command.action

/-- Carries out a command that does what `perform` says, if the number of its arguments is right. -/
def carryOut (command : Command α)
    (perform : Arguments → Calculator → Calculator × Except Fault Reply) (a : Arguments)
    (c : Calculator) : Calculator × Except Fault Reply :=
  if a.words.length ≠ command.arity then (c, .error (.wrongUsage command.usage))
  else perform a c

/-- Carries out one of the calculator's own commands. -/
def invoke (command : Command) (help : String) (a : Arguments) (c : Calculator) :
    Calculator × Except Fault Reply :=
  command.carryOut (command.action.perform help) a c

end Command

end DeskCalculator
