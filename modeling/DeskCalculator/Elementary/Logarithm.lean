import DeskCalculator.Binary64.Parts
import DeskCalculator.Elementary.FixedPoint

/-!
# DeskCalculator.Elementary.Logarithm — natural and common logarithm

Each function gives the binary64 number nearest to the exact value at its argument, minus infinity
at a zero and NaN below.
-/

namespace DeskCalculator.Elementary

open Binary64

/-- The natural logarithm of `m * 2 ^ q`, for `0 < m`: `e log 2 + 2 artanh ((f - 1) / (f + 1))`
where `m * 2 ^ q = f * 2 ^ e` and `f` lies between three quarters and one and a half. -/
def fixedLog (m : Nat) (q : Int) : Int :=
  let f : Int := m * Nat.pow 2 (places - m.log2)
  let e : Int := q + m.log2
  let (f, e) := if 3 * one ≤ 2 * f then (f / 2, e + 1) else (f, e)
  let z := (f - one) * one / (f + one)
  e * logTwo + 2 * oddSeries 1 (z * z / one) 70 0 z

/-- A logarithm: `scale` of the natural one where the argument is positive and finite. -/
def logarithm (scale : Int → Int) (x : Float) : Float :=
  match parts x with
  | .zero _ => infinity .negative
  | .finite .positive m q _ => nearestInt (scale (fixedLog m q)) (-places)
  | .infinity .positive => x
  | .finite .negative _ _ _ | .infinity .negative | .notANumber => notANumber

/-- The natural logarithm. -/
def naturalLog (x : Float) : Float := logarithm id x

/-- The logarithm to base ten. -/
def commonLog (x : Float) : Float := logarithm (fun l => l * one / fixedLog 5 1) x

end DeskCalculator.Elementary
