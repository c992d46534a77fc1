import DeskCalculator.Binary64.Parts
import DeskCalculator.Elementary.FixedPoint

/-!
# DeskCalculator.Elementary.Circle — the circle functions and their inverses, in radians

Each function gives the binary64 number nearest to the exact value at its argument.  An angle is
first reduced by quarter turns with the circle number at `piPlaces` binary places.  Below `2 ^ -28`
in size sine, tangent, arcsine and arctangent differ from their argument by less than half a unit
in the last place, so the argument itself is the result.
-/

namespace DeskCalculator.Elementary

open Binary64

/-- Whether `m * 2 ^ q` lies below `2 ^ -28`. -/
def isTiny (m : Nat) (q : Int) : Bool := decide ((m.log2 : Int) + q < -28)

/-- Sine and cosine of the angle `m * 2 ^ q`. -/
def sineCosine (m : Nat) (q : Int) : Int × Int :=
  let angle := m * Nat.pow 2 (q + piPlaces).toNat
  let quarter := piLong / 2
  let r : Int := angle % quarter / Nat.pow 2 (piPlaces - places)
  let square := r * r / one
  let s := circleSeries square 40 1 r
  let c := circleSeries square 40 0 one
  match angle / quarter % 4 with
  | 0 => (s, c)
  | 1 => (c, -s)
  | 2 => (-s, -c)
  | _ => (-c, s)

/-- The sine of an angle. -/
def sine (x : Float) : Float :=
  match parts x with
  | .zero _ => x
  | .finite s m q _ =>
    if isTiny m q then x else nearestInt (s.apply (sineCosine m q).1) (-places)
  | .infinity _ | .notANumber => notANumber

/-- The cosine of an angle. -/
def cosine (x : Float) : Float :=
  match parts x with
  | .zero _ => 1
  | .finite _ m q _ => nearestInt (sineCosine m q).2 (-places)
  | .infinity _ | .notANumber => notANumber

/-- The tangent of an angle. -/
def tangent (x : Float) : Float :=
  match parts x with
  | .zero _ => x
  | .finite s m q _ =>
    if isTiny m q then x
    else
      let (a, b) := sineCosine m q
      nearestInt (s.apply (Int.tdiv (a * one) b)) (-places)
  | .infinity _ | .notANumber => notANumber

/-- The tangent of half the angle whose tangent is `z`. -/
def halfTangent (z : Nat) : Nat := z * one / (one + (one * one + z * z).sqrt)

/-- The angle whose tangent is `z`: after ten halvings the series needs few terms. -/
def fixedArctangent (z : Nat) : Nat :=
  let w : Nat := Nat.repeat halfTangent 10 z
  (oddSeries (-1) (w * w / one) 20 0 w).toNat * Nat.pow 2 10

/-- The angle between `0` and `π / 2` whose sine is `z`, for `z` at most one. -/
def fixedArcsine (z : Nat) : Nat := 2 * fixedArctangent (z * one / (one + (one * one - z * z).sqrt))

/-- The angle between `0` and `π / 2` whose cosine is `z`, for `z` at most one. -/
def fixedArccosine (z : Nat) : Nat :=
  2 * fixedArctangent ((one * one - z * z).sqrt * one / (one + z))

/-- The angle whose sine is `x`; NaN beyond one. -/
def arcsine (x : Float) : Float :=
  match parts x with
  | .zero _ => x
  | .finite s m q _ =>
    if isTiny m q then x
    else if fixed m q ≤ one then nearest s (fixedArcsine (fixed m q)) (-places)
    else notANumber
  | .infinity _ | .notANumber => notANumber

/-- The angle whose cosine is `x`; NaN beyond one. -/
def arccosine (x : Float) : Float :=
  match parts x with
  | .zero _ => nearest .positive pi (-places - 1)
  | .finite s m q _ =>
    if fixed m q ≤ one then
      let angle := fixedArccosine (fixed m q)
      match s with
      | .positive => nearest .positive angle (-places)
      | .negative => nearest .positive (pi - angle) (-places)
    else notANumber
  | .infinity _ | .notANumber => notANumber

/-- The angle whose tangent is `x`. -/
def arctangent (x : Float) : Float :=
  match parts x with
  | .zero _ => x
  | .finite s m q _ =>
    if isTiny m q then x else nearest s (fixedArctangent (fixed m q)) (-places)
  | .infinity s => nearest s pi (-places - 1)
  | .notANumber => notANumber

end DeskCalculator.Elementary
