import DeskCalculator.Decimal.Numeral
import DeskCalculator.Decimal.Shortest

/-!
# DeskCalculator.Decimal.Style — the ways in which numbers are written

All of them write the shortest digits that identify the number.  A style says for which positions
of the point the digits are written in place, whether a whole number ends in `.0`, how an exponent
is signed, and what stands for a zero with a sign, an infinity and NaN.  The library writes numbers
in four styles: on the display, in the text of a fault, in the debug text of a state, and in JSON.
A finite number is written as a numeral, so that what is written can be read again.
-/

namespace DeskCalculator.Decimal

open Binary64 (Sign parts)
open Numeral (Magnitude)

/-- How numbers are written. -/
structure Style where
  /-- The positions of the point for which the digits are written in place. -/
  inPlace : Int → Bool
  /-- The fraction of a whole number that is written in place. -/
  wholeFraction : Option (List Char)
  /-- The written sign of an exponent that is not negative. -/
  exponentSign : Option Sign
  /-- Whether the zero with a minus sign is written with it. -/
  signedZero : Bool
  /-- Which digits are taken when two sets of them are equally good. -/
  tie : Tie
  /-- The texts of the infinities. -/
  infinity : Sign → String
  /-- The text of NaN. -/
  notANumber : String

/-- Digits in place, with the point after the first `point` of them. -/
def placed (wholeFraction : Option (List Char)) (digits : List Char) (point : Int) : Magnitude :=
  if point ≤ 0 then .decimal ['0'] (some (List.replicate (-point).toNat '0' ++ digits)) none
  else
    let n := point.toNat
    if digits.length ≤ n then
      .decimal (digits ++ List.replicate (n - digits.length) '0') wholeFraction none
    else .decimal (digits.take n) (some (digits.drop n)) none

/-- Digits with the point after the first of them, and an exponent. -/
def scaled (exponentSign : Option Sign) (digits : List Char) (point : Int) : Magnitude :=
  let e := point - 1
  let fraction := if digits.length ≤ 1 then none else some (digits.drop 1)
  .decimal (digits.take 1) fraction
    (some ⟨false, if e < 0 then some .negative else exponentSign, Nat.toDigits 10 e.natAbs⟩)

/-- The sign of a number as it is written: a plus sign never is. -/
def numberSign : Sign → Option Sign
  | .negative => some .negative
  | .positive => none

namespace Style

/-- The size of the number with the given shortest digits. -/
def magnitude (style : Style) (d : Decimal) : Magnitude :=
  if style.inPlace d.point then placed style.wholeFraction d.chars d.point
  else scaled style.exponentSign d.chars d.point

/-- The numeral of a zero. -/
def zero (style : Style) (s : Sign) : Numeral :=
  ⟨if style.signedZero then numberSign s else none, placed style.wholeFraction ['0'] 1⟩

/-- The numeral of `± m * 2 ^ q`, for `0 < m`. -/
def finite (style : Style) (s : Sign) (m : Nat) (q : Int) : Numeral :=
  ⟨numberSign s, style.magnitude (shortest style.tie m q)⟩

/-- The numeral of a number, if it is finite. -/
def numeral? (style : Style) (x : Float) : Option Numeral :=
  match parts x with
  | .notANumber | .infinity _ => none
  | .zero s => some (style.zero s)
  | .finite s m q _ => some (style.finite s m q)

/-- The text of a number. -/
def chars (style : Style) (x : Float) : List Char :=
  match parts x with
  | .notANumber => style.notANumber.toList
  | .infinity s => (style.infinity s).toList
  | .zero s => (style.zero s).chars
  | .finite s m q _ => (style.finite s m q).chars

/-- The text of a number. -/
def write (style : Style) (x : Float) : String := .ofList (style.chars x)

end Style

/-- A text for the infinities, with a minus sign before it where there is one. -/
def signed (text : String) : Sign → String
  | .positive => text
  | .negative => "-" ++ text

/-- Numbers on the display: in place from `1e-6` up to below `1e+21`, no sign on a zero. -/
def display : Style where
  inPlace point := decide (-6 < point ∧ point ≤ 21)
  wholeFraction := none
  exponentSign := some .positive
  signedZero := false
  tie := .up
  infinity := signed "Infinity"
  notANumber := "NaN"

/-- Numbers in the text of a fault: always in place. -/
def plain : Style where
  inPlace _ := true
  wholeFraction := none
  exponentSign := none
  signedZero := true
  tie := .up
  infinity := signed "inf"
  notANumber := "NaN"

/-- Numbers in a debug text: in place from `1e-4` up to below `1e16`, whole ones with `.0`. -/
def debug : Style where
  inPlace point := decide (-4 < point ∧ point ≤ 16)
  wholeFraction := some ['0']
  exponentSign := none
  signedZero := true
  tie := .up
  infinity := signed "inf"
  notANumber := "NaN"

/-- Numbers in JSON: in place from `1e-5` up to below `1e16`, whole ones with `.0`.  Those that are
not finite have no numeral there. -/
def json : Style where
  inPlace point := decide (-5 < point ∧ point ≤ 16)
  wholeFraction := some ['0']
  exponentSign := some .positive
  signedZero := true
  tie := .toEven
  infinity _ := "null"
  notANumber := "null"

end DeskCalculator.Decimal
