import DeskCalculator.Command.Standard
import DeskCalculator.Text.Lowercase

/-!
# DeskCalculator.Interpreter — from a line to a reply

The first word of a line, in lower case, names a command, and the other words are its arguments.  A
line without words does nothing.  The interpreter runs or is stopped; only a reply that ends the
session stops it, and it answers lines in both states.
-/

namespace DeskCalculator

/-- The state of the interpreter. -/
structure Interpreter (α : Type := Action) [Handling α] where
  calculator : Calculator
  catalogue : Catalogue α := .standard α
  strictness : Strictness := .lenient
  running : Bool := false

/-- A line as a command name and arguments. -/
def splitLine (line : String) : Option (String × List String) :=
  match Text.words line.toList with
  | [] => none
  | name :: words => some (.ofList (Text.lowercase name), words.map .ofList)

namespace Interpreter

variable {α : Type} [Handling α]

/-- Starts the interpreter. -/
def start (i : Interpreter α) : Interpreter α := { i with running := true }

/-- Stops the interpreter. -/
def stop (i : Interpreter α) : Interpreter α := { i with running := false }

/-- The interpreter after a command, and its outcome. -/
def answer (i : Interpreter α) (step : Calculator × Except Fault Reply) :
    Interpreter α × Except Fault (Option Reply) :=
  let i := { i with calculator := step.1 }
  match step.2 with
  | .ok reply => (if reply.exits then i.stop else i, .ok (some reply))
  | .error fault => (i, .error fault)

/-- Carries out a line. -/
def submit (i : Interpreter α) (line : String) :
    Interpreter α × Except Fault (Option Reply) :=
  match splitLine line with
  | none => (i, .ok none)
  | some (name, words) =>
    match i.catalogue.find? name with
    | none => (i, .error (.unknownCommand name))
    | some command =>
      i.answer (i.catalogue.invoke command ⟨words, i.strictness⟩ i.calculator)

end Interpreter

end DeskCalculator
