import DeskCalculator.Decimal.Style
import DeskCalculator.Journal

/-!
# DeskCalculator.Display — how results and histories are shown

A calculation is shown as a call, `add(10, 5) = 15`; a use of the memory as its name and what
happened to the register.  A list of entries has one line for each, numbered from one.
-/

namespace DeskCalculator.Display

/-- The text of a number. -/
def number (x : Float) : String := Decimal.display.write x

/-- An operation as a call. -/
def call (operation : String) (first : Float) (second : Option Float) (result : Float) : String :=
  let operands := match second with
    | some b => number first ++ ", " ++ number b
    | none => number first
  operation ++ "(" ++ operands ++ ") = " ++ number result

/-- The text of a calculation. -/
def calculation (c : Calculation) : String := call c.operation c.first c.second c.result

/-- The text of a memory access. -/
def memoryAccess (a : MemoryAccess) : String :=
  let old := number (a.old.getD 0)
  let detail := match a.action with
    | .store => number a.value ++ " -> Memory"
    | .retrieve => "Memory = " ++ number a.value
    | .clear => old ++ " -> 0"
    | .add => old ++ " + " ++ number a.value ++ " = " ++ number a.new
    | .subtract => old ++ " - " ++ number a.value ++ " = " ++ number a.new
  a.action.name ++ ": " ++ detail

/-- The numbered lines of some items, the first of them with the number `n`. -/
def numberedFrom (n : Nat) (render : α → String) : List α → List String
  | [] => []
  | a :: as => (toString n ++ ". " ++ render a) :: numberedFrom (n + 1) render as

/-- The numbered lines of some items. -/
def numbered (render : α → String) (items : List α) : String :=
  "\n".intercalate (numberedFrom 1 render items)

end DeskCalculator.Display
