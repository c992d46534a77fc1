import DeskCalculator.Decimal.Numeral
import DeskCalculator.Fault
import DeskCalculator.Text.Blank

/-!
# DeskCalculator.Strictness — how the words of a line are taken for numbers

Lenient reading takes the longest numeral that a word starts with, and NaN if there is none.  Strict
reading takes a word only when all of it is a numeral.  In both, white space before the number does
not count.
-/

namespace DeskCalculator

/-- How much of a word has to be a number. -/
inductive Strictness
  /-- The longest numeral at the start of the word counts. -/
  | lenient
  /-- The whole word has to be a numeral. -/
  | strict
deriving DecidableEq

/-- The number that a text starts with, NaN if there is none. -/
def leadingNumber (text : String) : Float :=
  match Numeral.scan (Text.trimStart text.toList) with
  | some (n, _) => n.value
  | none => Binary64.notANumber

/-- The number that a text is as a whole, up to white space around it. -/
def wholeNumber? (text : String) : Option Float :=
  match Numeral.scan (Text.trim text.toList) with
  | some (n, []) => some n.value
  | _ => none

/-- The range of the integers that are read: those of a signed 64-bit word. -/
def fitsWord (n : Int) : Bool := decide (-Nat.pow 2 63 ≤ n ∧ n < Nat.pow 2 63)

/-- The integer at the start of a text, a sign and digits, and what follows it. -/
def scanInteger (cs : List Char) : Option (Int × List Char) :=
  let (sign, cs) := scanSign cs
  let digits := cs.takeWhile Char.isDigit
  if digits.isEmpty then none
  else
    let n := signedValue sign (digitsValue digits)
    if fitsWord n then some (n, cs.dropWhile Char.isDigit) else none

/-- The integer that a text starts with. -/
def leadingInteger? (text : String) : Option Int :=
  (scanInteger (Text.trimStart text.toList)).map Prod.fst

/-- The integer that a text is as a whole, up to white space around it. -/
def wholeInteger? (text : String) : Option Int :=
  match scanInteger (Text.trim text.toList) with
  | some (n, []) => some n
  | _ => none

namespace Strictness

/-- The number of a word. -/
def number : Strictness → String → Except Fault Float
  | lenient, token => .ok (leadingNumber token)
  | strict, token => (wholeNumber? token).elim (.error (.notNumeric token)) .ok

/-- The integer of a word; `missing` is the lenient fault when it starts with none. -/
def integer (missing : String → Fault) : Strictness → String → Except Fault Int
  | lenient, token => (leadingInteger? token).elim (.error (missing token)) .ok
  | strict, token => (wholeInteger? token).elim (.error (.notNumeric token)) .ok

end Strictness

end DeskCalculator
