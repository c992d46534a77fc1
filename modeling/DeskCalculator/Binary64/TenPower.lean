import DeskCalculator.Binary64.Integral

/-!
# DeskCalculator.Binary64.TenPower — powers of ten and rounding to decimal places

A power of ten is taken by repeated squaring in binary64, so that large ones carry the rounding of
each product; of a negative exponent the reciprocal is taken at the end.  `roundTo` scales by such
a power, rounds to a whole number and scales back.
-/

namespace DeskCalculator.Binary64

/-- `r * b ^ n` by repeated squaring, for an `n` of at most `bits` binary digits. -/
def squaring : (bits : Nat) → (n : Nat) → (b r : Float) → Float
  | 0, _, _, r => r
  | bits + 1, n, b, r =>
    let r := if n % 2 = 1 then r * b else r
    if n / 2 = 0 then r else squaring bits (n / 2) (b * b) r

/-- Ten to the power `n`. -/
def tenPower (n : Int) : Float :=
  let r := squaring (n.natAbs.log2 + 1) n.natAbs 10 1
  if n < 0 then 1 / r else r

/-- `x` rounded to `precision` decimal places, a half going away from zero.  The exponent is the
precision read as a signed 32-bit word.  A number that is not finite, or whose scaled form is not,
is left alone. -/
def roundTo (x : Float) (precision : UInt32) : Float :=
  let factor := tenPower precision.toInt32.toInt
  let scaled := x * factor
  if x.isFinite && scaled.isFinite then roundHalfAway scaled / factor else x

end DeskCalculator.Binary64
