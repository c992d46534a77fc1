import DeskCalculator.Binary64.Parts

/-!
# DeskCalculator.Decimal.Numeral — the texts that stand for numbers

A numeral is an optional sign followed by `Infinity`, or by digits with an optional point and
fraction and an optional exponent; there is a digit before or behind the point.  `Numeral.scan`
reads the longest numeral that a text starts with, `Numeral.chars` gives its text back, and
`Numeral.value` is the binary64 number nearest to what it says.
-/

namespace DeskCalculator

open Binary64

/-- The character of a written sign. -/
def writtenSign : Option Sign → List Char
  | none => []
  | some .positive => ['+']
  | some .negative => ['-']

/-- Reads a sign if there is one. -/
def scanSign : List Char → Option Sign × List Char
  | '+' :: cs => (some .positive, cs)
  | '-' :: cs => (some .negative, cs)
  | cs => (none, cs)

/-- The whole number of decimal digits. -/
def digitsValue (digits : List Char) : Nat := Nat.ofDigitChars 10 digits 0

/-- A whole number with a written sign. -/
def signedValue (sign : Option Sign) (n : Nat) : Int :=
  match sign with
  | some .negative => -n
  | some .positive | none => n

namespace Numeral

/-- The exponent of a numeral, behind `e` or `E`. -/
structure Exponent where
  capital : Bool
  sign : Option Sign
  digits : List Char

/-- What follows the sign of a numeral. -/
inductive Magnitude
  | infinity
  | decimal (whole : List Char) (fraction : Option (List Char)) (exponent : Option Exponent)

end Numeral

/-- A number as it is written. -/
structure Numeral where
  sign : Option Sign
  magnitude : Numeral.Magnitude

namespace Numeral

/-! ## Text -/

/-- The text of an exponent. -/
def Exponent.chars (e : Exponent) : List Char :=
  (if e.capital then 'E' else 'e') :: writtenSign e.sign ++ e.digits

/-- The text of a numeral. -/
def chars (n : Numeral) : List Char :=
  writtenSign n.sign ++
    match n.magnitude with
    | .infinity => "Infinity".toList
    | .decimal whole fraction exponent =>
      whole ++ (fraction.elim [] ('.' :: ·)) ++ (exponent.elim [] Exponent.chars)

/-- Whether a text is a run of decimal digits. -/
def AllDigits (cs : List Char) : Prop := ∀ c ∈ cs, c.isDigit

/-- What is required of the parts of a numeral: digits where digits are meant, at least one of them
before or behind the point, and at least one in an exponent. -/
def WellFormed (n : Numeral) : Prop :=
  match n.magnitude with
  | .infinity => True
  | .decimal whole fraction exponent =>
    AllDigits whole ∧ AllDigits (fraction.getD []) ∧ whole ++ fraction.getD [] ≠ [] ∧
      ∀ e ∈ exponent, AllDigits e.digits ∧ e.digits ≠ []

/-! ## Reading -/

/-- Reads an exponent, if a complete one follows. -/
def scanExponent (cs : List Char) : Option Exponent × List Char :=
  let complete (capital : Bool) (rest : List Char) : Option Exponent × List Char :=
    let (sign, rest) := scanSign rest
    let digits := rest.takeWhile Char.isDigit
    if digits.isEmpty then (none, cs)
    else (some ⟨capital, sign, digits⟩, rest.dropWhile Char.isDigit)
  match cs with
  | 'e' :: rest => complete false rest
  | 'E' :: rest => complete true rest
  | _ => (none, cs)

/-- Reads a point and the digits behind it, after `whole` digits before it. -/
def scanFraction (whole cs : List Char) : Option (List Char) × List Char :=
  match cs with
  | '.' :: rest =>
    let digits := rest.takeWhile Char.isDigit
    if whole.isEmpty && digits.isEmpty then (none, cs)
    else (some digits, rest.dropWhile Char.isDigit)
  | _ => (none, cs)

/-- The longest numeral at the start of a text, and what follows it. -/
def scan (cs : List Char) : Option (Numeral × List Char) :=
  let (sign, cs) := scanSign cs
  if "Infinity".toList.isPrefixOf cs then
    some (⟨sign, .infinity⟩, cs.drop "Infinity".toList.length)
  else
    let whole := cs.takeWhile Char.isDigit
    let (fraction, rest) := scanFraction whole (cs.dropWhile Char.isDigit)
    if whole.isEmpty && fraction.isNone then none
    else
      let (exponent, rest) := scanExponent rest
      some (⟨sign, .decimal whole fraction exponent⟩, rest)

/-! ## Value -/

/-- The whole number of an exponent. -/
def Exponent.value (e : Exponent) : Int := signedValue e.sign (digitsValue e.digits)

/-- The number nearest to `m * 10 ^ e`. -/
def scientific (m : Nat) (e : Int) : Float := Float.ofScientific m (decide (e < 0)) e.natAbs

/-- The number nearest to what follows the sign. -/
def Magnitude.value : Magnitude → Float
  | .infinity => Binary64.infinity .positive
  | .decimal whole fraction exponent =>
    let fraction := fraction.getD []
    scientific (digitsValue (whole ++ fraction)) (exponent.elim 0 Exponent.value - fraction.length)

/-- The number nearest to what a numeral says. -/
def value (n : Numeral) : Float :=
  match n.sign with
  | some .negative => -n.magnitude.value
  | some .positive | none => n.magnitude.value

end Numeral

end DeskCalculator
