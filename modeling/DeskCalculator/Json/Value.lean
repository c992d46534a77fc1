import DeskCalculator.Decimal.Style
import DeskCalculator.Json.Quoted

/-!
# DeskCalculator.Json.Value — JSON values and their text

A number is kept as the numeral that stands in the text, since the numeral, not its value, decides
whether it is an integer.  A string, and so the name of a member, keeps its text, or nothing when it
holds half of a surrogate pair.  Members keep their order.  Values are written without spaces.
-/

namespace DeskCalculator.Json

/-- A JSON value. -/
inductive Value
  | null
  | bool (b : Bool)
  | number (n : Numeral)
  | string (text : Option String)
  | array (items : List Value)
  | object (members : List (Option String × Value))

namespace Value

/-- An object with named members. -/
def record (members : List (String × Value)) : Value :=
  .object (members.map fun (name, v) => (some name, v))

/-- A text as a value. -/
def ofText (text : String) : Value := .string (some text)

/-- A whole number as a value. -/
def ofNat (n : Nat) : Value := .number ⟨none, .decimal (Nat.toDigits 10 n) none none⟩

/-- A number as a value; one that is not finite has none. -/
def ofFloat (x : Float) : Value := (Decimal.json.numeral? x).elim .null .number

/-- A string in JSON; one that has no text is written empty. -/
def stringChars (text : Option String) : List Char := quote (text.getD "").toList

mutual

/-- The text of a value. -/
def chars : Value → List Char
  | .null => "null".toList
  | .bool b => (if b then "true" else "false").toList
  | .number n => n.chars
  | .string text => stringChars text
  | .array items => '[' :: itemChars items ++ [']']
  | .object members => '\x7b' :: memberChars members ++ ['\x7d']

/-- The text of the items of an array, with commas between them. -/
def itemChars : List Value → List Char
  | [] => []
  | [v] => v.chars
  | v :: w :: vs => v.chars ++ ',' :: itemChars (w :: vs)

/-- The text of the members of an object, with commas between them. -/
def memberChars : List (Option String × Value) → List Char
  | [] => []
  | [(name, v)] => stringChars name ++ ':' :: v.chars
  | (name, v) :: m :: ms => stringChars name ++ ':' :: v.chars ++ ',' :: memberChars (m :: ms)

end

/-- The text of a value. -/
def render (v : Value) : String := .ofList v.chars

end Value

end DeskCalculator.Json
