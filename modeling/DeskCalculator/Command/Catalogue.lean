import DeskCalculator.Command.Basic

/-!
# DeskCalculator.Command.Catalogue — the commands that are known

A catalogue has at most one command of each name, in the order in which the names were first
registered.  Registering a name again puts the new command in the place of the old one.  A command
is found through an index, which has the position of each name.
-/

namespace DeskCalculator

/-- The commands that are known, in order. -/
structure Catalogue (α : Type := Action) where
  commands : List (Command α) := []
  /-- The names, each with the position of its command; a name is entered here once. -/
  index : List (String × Nat) := []

namespace Catalogue

variable {α : Type}

/-- The position of the command of a name. -/
def position? (k : Catalogue α) (name : String) : Option Nat := k.index.lookup name

/-- Adds a command, or replaces the one of its name. -/
def register (k : Catalogue α) (command : Command α) : Catalogue α :=
  match k.position? command.name with
  | some n => { k with commands := k.commands.set n command }
  | none =>
    { commands := k.commands ++ [command]
      index := (command.name, k.commands.length) :: k.index }

/-- The catalogue of some commands, registered in order. -/
def ofList (commands : List (Command α)) : Catalogue α := commands.foldl register {}

/-- The command of a name. -/
def find? (k : Catalogue α) (name : String) : Option (Command α) :=
  (k.position? name).bind fun n => k.commands[n]?

/-- The number of commands. -/
def size (k : Catalogue α) : Nat := k.commands.length

/-! ## Help -/

/-- The line of a command in the help text; its name is filled up to eight characters. -/
def helpLine (c : Command α) : String :=
  let fill := String.ofList (List.replicate (8 - c.name.length) ' ')
  "\n  " ++ c.name ++ fill ++ " - " ++ c.description ++ ": " ++ c.usage

/-- The commands of a group. -/
def members (k : Catalogue α) (category : Category) : List (Command α) :=
  k.commands.filter (·.category == category)

/-- The part of the help text for a group; nothing if the group is empty. -/
def helpBlock (k : Catalogue α) (category : Category) : String :=
  let lines := (k.members category).map helpLine
  if lines.isEmpty then "" else "\n\n" ++ category.title ++ ":" ++ String.join lines

/-- The last part of the help text. -/
def tips : String :=
  "\n\nTips:\n  Chain operations work on the last result\n  Type 'exit' to quit"

/-- The help text: all commands by groups. -/
def help (k : Catalogue α) : String :=
  "Available commands:" ++ String.join (Category.all.map k.helpBlock) ++ tips

end Catalogue

end DeskCalculator
