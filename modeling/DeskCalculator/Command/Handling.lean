import DeskCalculator.Command.Catalogue

/-!
# DeskCalculator.Command.Handling — commands of any kind

A command may do anything with its arguments and the calculator.  It sees the catalogue that it is
called from.
-/

namespace DeskCalculator

/-- The things of the type `α` say what commands do.  The actions of the calculator are among them,
and mean there what they always mean. -/
class Handling (α : Type) where
  ofAction : Action → α
  perform : α → Catalogue α → Arguments → Calculator → Calculator × Except Fault Reply
  perform_ofAction : ∀ (action : Action) (k : Catalogue α),
    perform (ofAction action) k = action.perform k.help

instance : Handling Action where
  ofAction := id
  perform action k := action.perform k.help
  perform_ofAction _ _ := rfl

namespace Catalogue

/-- Carries out a command of a catalogue. -/
def invoke {α : Type} [Handling α] (k : Catalogue α) (command : Command α) (a : Arguments)
    (c : Calculator) : Calculator × Except Fault Reply :=
  command.carryOut (Handling.perform command.action k) a c

theorem invoke_eq (k : Catalogue) (command : Command) : k.invoke command = command.invoke k.help :=
  rfl

/-- The calculator's own commands do among others what they always do. -/
theorem invoke_map_ofAction {α : Type} [Handling α] (k : Catalogue α) (command : Command) :
    k.invoke (command.map Handling.ofAction) = command.invoke k.help := by
  unfold invoke Command.invoke
  rw [Command.map, Handling.perform_ofAction]
  rfl

end Catalogue

end DeskCalculator
