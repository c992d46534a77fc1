import DeskCalculator.Binary64.Parts

/-!
# DeskCalculator.Binary64.Remainder — the remainder of a truncating division

`remainder x y` is `x - n * y` for the whole number `n` that `x / y` becomes when it is cut off
toward zero.  The result is exact, it has the sign of `x`, and it is smaller than `y` in size.
-/

namespace DeskCalculator.Binary64

/-- What is left of `x` when `y` has been taken from it as often as it fits; NaN where no such
number is meant: `x` infinite, `y` zero, or either of them NaN. -/
def remainder (x y : Float) : Float :=
  match parts x, parts y with
  | .notANumber, _ | _, .notANumber | .infinity _, _ | _, .zero _ => notANumber
  | .zero _, _ | _, .infinity _ => x
  | .finite s m q _, .finite _ n r _ =>
    let low := min q r
    nearest s (m * Nat.pow 2 (q - low).toNat % (n * Nat.pow 2 (r - low).toNat)) low

end DeskCalculator.Binary64
