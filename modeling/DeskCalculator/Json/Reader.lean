import DeskCalculator.Json.Value

/-!
# DeskCalculator.Json.Reader — reading JSON

`Value.parse?` reads a text that is one JSON value with white space around it, and nothing else.
Nesting and length are bounded by the length of the text, which serves as fuel.
-/

namespace DeskCalculator.Json

/-- The white space of JSON. -/
def isSpace (c : Char) : Bool := c == ' ' || c == '\t' || c == '\n' || c == '\r'

/-- A text without the white space at its start. -/
def skipSpace (cs : List Char) : List Char := cs.dropWhile isSpace

/-- What follows a given beginning of a text. -/
def strip? (start cs : List Char) : Option (List Char) :=
  if start.isPrefixOf cs then some (cs.drop start.length) else none

/-- Whether a numeral has the form of a number in JSON: no plus sign, no zero before other digits,
and digits on both sides of a point. -/
def isNumber (n : Numeral) : Bool :=
  match n.sign, n.magnitude with
  | some .positive, _ => false
  | _, .infinity => false
  | _, .decimal whole fraction _ =>
    (whole == ['0'] || (!whole.isEmpty && whole.head? != some '0')) && fraction != some []

/-- Reads a number. -/
def scanNumber (cs : List Char) : Option (Value × List Char) := do
  let (n, rest) ← Numeral.scan cs
  if isNumber n then some (.number n, rest) else none

/-- Reads a string, whose opening quote has been read. -/
def scanString (cs : List Char) : Option (Option String × List Char) := do
  let (pieces, rest) ← scanPieces cs
  return ((textOf? pieces).map .ofList, rest)

/-- Reads items with commas between them up to a closing bracket; at least one item follows. -/
def scanItems (item : List Char → Option (α × List Char)) (close : Char) :
    (fuel : Nat) → List Char → Option (List α × List Char)
  | 0, _ => none
  | fuel + 1, cs => do
    let (a, rest) ← item cs
    match skipSpace rest with
    | ',' :: rest =>
      let (as, rest) ← scanItems item close fuel rest
      return (a :: as, rest)
    | c :: rest => if c = close then some ([a], rest) else none
    | [] => none

/-- Reads items with commas between them up to a closing bracket. -/
def scanList (item : List Char → Option (α × List Char)) (close : Char) (cs : List Char) :
    Option (List α × List Char) :=
  match skipSpace cs with
  | [] => none
  | c :: rest => if c = close then some ([], rest) else scanItems item close cs.length cs

/-- Reads a member of an object: a string, a colon and a value. -/
def scanMember (value : List Char → Option (Value × List Char)) (cs : List Char) :
    Option ((Option String × Value) × List Char) := do
  let rest ← strip? ['"'] (skipSpace cs)
  let (name, rest) ← scanString rest
  let rest ← strip? [':'] (skipSpace rest)
  let (v, rest) ← value rest
  return ((name, v), rest)

/-- Reads a value, nested less deeply than `fuel`. -/
def scanValue : (fuel : Nat) → List Char → Option (Value × List Char)
  | 0, _ => none
  | fuel + 1, cs =>
    match skipSpace cs with
    | 'n' :: rest => (strip? "ull".toList rest).map (Value.null, ·)
    | 't' :: rest => (strip? "rue".toList rest).map (Value.bool true, ·)
    | 'f' :: rest => (strip? "alse".toList rest).map (Value.bool false, ·)
    | '"' :: rest => (scanString rest).map fun (text, rest) => (.string text, rest)
    | '[' :: rest => (scanList (scanValue fuel) ']' rest).map fun (vs, rest) => (.array vs, rest)
    | '\x7b' :: rest =>
      (scanList (scanMember (scanValue fuel)) '\x7d' rest).map fun (ms, rest) => (.object ms, rest)
    | cs => scanNumber cs

/-- The value that a text is. -/
def Value.parse? (text : String) : Option Value := do
  let cs := text.toList
  let (v, rest) ← scanValue (cs.length + 1) cs
  if (skipSpace rest).isEmpty then some v else none

end DeskCalculator.Json
