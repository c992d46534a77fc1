import DeskCalculator.Json.Number
import DeskCalculator.Json.Reader

/-!
# DeskCalculator.Json.Fields — taking values apart

A record is an object with a member for each of its fields, or an array of the fields in their
order.  Members that are no fields do not matter, so long as their names are texts, but no field may
come twice.  A name out of a fixed list is a string, or an object with that name as its only member
and `null` in it.
-/

namespace DeskCalculator.Json.Value

/-- A truth value. -/
def toBool? : Value → Option Bool
  | bool b => some b
  | _ => none

/-- A text. -/
def toText? : Value → Option String
  | string text => text
  | _ => none

/-- A number. -/
def toFloat? : Value → Option Float
  | number n => Json.toFloat? n
  | _ => none

/-- An unsigned 32-bit integer. -/
def toUInt32? : Value → Option UInt32
  | number n => Json.toUInt32? n
  | _ => none

/-- Something that may be missing. -/
def toOption? (read : Value → Option α) : Value → Option (Option α)
  | null => some none
  | v => (read v).map some

/-- A name. -/
def toName? : Value → Option String
  | string text => text
  | object [(name, null)] => name
  | _ => none

/-- The value of a field among the members of an object; nothing if it comes twice. -/
def member? (name : String) (members : List (Option String × Value)) : Option (Option Value) :=
  match members.filter (·.1 == some name) with
  | [] => some none
  | [(_, v)] => some (some v)
  | _ => none

/-- The values of the fields of a record, each of which may be missing. -/
def fields? (names : List String) : Value → Option (List (Option Value))
  | object members =>
    if members.all (·.1.isSome) then names.mapM (member? · members) else none
  | array items =>
    if items.length ≤ names.length then
      some (items.map some ++ List.replicate (names.length - items.length) none)
    else none
  | _ => none

end DeskCalculator.Json.Value
