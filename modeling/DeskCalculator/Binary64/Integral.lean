import DeskCalculator.Binary64.Parts

/-!
# DeskCalculator.Binary64.Integral — whole numbers among the binary64 numbers

A number `± m * 2 ^ q` is whole when `q` is not negative or the lowest `-q` bits of `m` are zero.
Rounding to a whole number takes a half away from zero and keeps the sign, that of a zero too.
-/

namespace DeskCalculator.Binary64

/-- Whether `x` is finite and has no digit after the point. -/
def isWhole (x : Float) : Bool :=
  match parts x with
  | .zero _ => true
  | .finite _ m q _ => decide (0 ≤ q) || m % Nat.pow 2 (-q).toNat == 0
  | .infinity _ | .notANumber => false

/-- The whole number nearest to `x`, a half going away from zero. -/
def roundHalfAway (x : Float) : Float :=
  match parts x with
  | .finite s m q _ =>
    if 0 ≤ q then x
    else
      let k := (-q).toNat
      nearest s ((2 * m + Nat.pow 2 k) / Nat.pow 2 (k + 1)) 0
  | _ => x

end DeskCalculator.Binary64
