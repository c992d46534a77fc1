import DeskCalculator.Json.Value

/-!
# DeskCalculator.Json.Number — what the numbers of JSON stand for

A number is read with a significand of 64 bits.  Digits that would overflow it are dropped; before
the point they still count for the exponent.  The significand is rounded to binary64 and then
multiplied or divided by a power of ten, which is rounded a second time, so that a number with many
digits or a large exponent need not become the nearest binary64 number.  Numbers that come out
infinite are refused.
-/

namespace DeskCalculator.Json

open Binary64

/-- The digits read so far: `digits * 10 ^ exponent`, and whether a digit was dropped behind the
point. -/
structure Significand where
  digits : Nat := 0
  exponent : Int := 0
  full : Bool := false

namespace Significand

/-- The digits with one more, if they still fit 64 bits. -/
def push? (s : Significand) (c : Char) : Option Nat :=
  let n := 10 * s.digits + digitsValue [c]
  if n < Nat.pow 2 64 then some n else none

/-- One more digit before the point; once one did not fit, all count for the exponent. -/
def pushWhole (s : Significand) (c : Char) : Significand :=
  match if s.exponent = 0 then s.push? c else none with
  | some n => { s with digits := n }
  | none => { s with exponent := s.exponent + 1 }

/-- One more digit behind the point; once one did not fit, all are dropped. -/
def pushFraction (s : Significand) (c : Char) : Significand :=
  match if s.full then none else s.push? c with
  | some n => { s with digits := n, exponent := s.exponent - 1 }
  | none => { s with full := true }

/-- The significand of digits before and behind the point. -/
def ofDigits (whole fraction : List Char) : Significand :=
  fraction.foldl pushFraction (whole.foldl pushWhole {})

end Significand

/-- The power of ten `10 ^ n`, `n` up to 308. -/
def tableTen (n : Nat) : Float := Numeral.scientific 1 n

/-- `f * 10 ^ e`, if it is finite; below `10 ^ -308` in several steps, of which three reach zero. -/
def scaleByTen : (steps : Nat) → (f : Float) → (e : Int) → Option Float
  | steps, f, e =>
    if e.natAbs ≤ 308 then
      if 0 ≤ e then
        let g := f * tableTen e.natAbs
        if g.isInf then none else some g
      else some (f / tableTen e.natAbs)
    else if f == 0 then some f
    else if 0 ≤ e then none
    else
      match steps with
      | 0 => some 0
      | steps + 1 => scaleByTen steps (f / tableTen 308) (e + 308)

/-- The range of the exponents: those of a signed 32-bit word. -/
def clampExponent (e : Int) : Int := max (-Nat.pow 2 31) (min e (Nat.pow 2 31 - 1))

/-- The number of a numeral, without its sign. -/
def magnitude? (whole fraction : List Char) (exponent : Option Numeral.Exponent) : Option Float :=
  let s := Significand.ofDigits whole fraction
  let f := (UInt64.ofNat s.digits).toFloat
  match exponent with
  | none => scaleByTen 3 f s.exponent
  | some e =>
    if Nat.pow 2 31 ≤ e.value.natAbs then
      if s.digits ≠ 0 ∧ 0 < e.value then none else some 0
    else scaleByTen 3 f (clampExponent (s.exponent + e.value))

/-- The number of a numeral. -/
def toFloat? (n : Numeral) : Option Float :=
  match n.magnitude with
  | .infinity => none
  | .decimal whole fraction exponent => do
    let f ← magnitude? whole (fraction.getD []) exponent
    return match n.sign with
      | some .negative => -f
      | some .positive | none => f

/-- The unsigned 32-bit integer of a numeral that has no sign, no fraction and no exponent. -/
def toUInt32? (n : Numeral) : Option UInt32 :=
  match n with
  | ⟨none, .decimal whole none none⟩ =>
    let n := digitsValue whole
    if n < Nat.pow 2 32 then some (.ofNat n) else none
  | _ => none

end DeskCalculator.Json
