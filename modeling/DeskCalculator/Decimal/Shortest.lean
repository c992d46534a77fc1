/-!
# DeskCalculator.Decimal.Shortest — the fewest decimal digits that identify a binary64 number

The reals that round to the number `m * 2 ^ q` form an interval, whose ends belong to it exactly
when `m` is even.  On the grid of the multiples of a power of ten the two neighbours of the number
are the only points that need to be tried: if any point of the grid lies in the interval, one of
them does.  The grids are tried from the coarsest, with one digit, to the one with seventeen,
which always has a point; of two neighbours in the interval the nearer is taken.
-/

namespace DeskCalculator

/-- The number `digits * 10 ^ exponent`. -/
structure Decimal where
  digits : Nat
  exponent : Int
deriving DecidableEq

namespace Decimal

/-- The digits as characters. -/
def chars (d : Decimal) : List Char := Nat.toDigits 10 d.digits

/-- The position of the point, counted from the front of the digits: `0.d₁d₂… * 10 ^ point`. -/
def point (d : Decimal) : Int := d.chars.length + d.exponent

/-- The same number without zeros at the end of its digits, as far as `fuel` reaches. -/
def trim : (fuel : Nat) → Decimal → Decimal
  | 0, d => d
  | fuel + 1, d =>
    if d.digits % 10 = 0 then trim fuel ⟨d.digits / 10, d.exponent + 1⟩ else d

/-- The exact decimal form of `m * 2 ^ q`. -/
def exact (m : Nat) (q : Int) : Decimal :=
  if 0 ≤ q then ⟨m * Nat.pow 2 q.toNat, 0⟩ else ⟨m * Nat.pow 5 (-q).toNat, q⟩

/-- Which neighbour is taken when both are equally near. -/
inductive Tie
  | up
  | toEven
deriving DecidableEq

/-- The least significand of a number that is not subnormal. -/
def leastNormal : Nat := Nat.pow 2 52

/-- The exponent of the subnormal numbers. -/
def leastExponent : Int := -1074

/-- The neighbour of `m * 2 ^ q` on the grid of the multiples of `10 ^ g` that rounds back to it. -/
def onGrid (tie : Tie) (m : Nat) (q g : Int) : Option Nat :=
  -- in a common unit the number is `4 m * quantum`, and the grid has the points `d * step`
  let quantum := Nat.pow 2 (q - 2).toNat * Nat.pow 10 (-g).toNat
  let step := Nat.pow 10 g.toNat * Nat.pow 2 (2 - q).toNat
  let value := 4 * m * quantum
  let low := (if m = leastNormal ∧ leastExponent < q then 4 * m - 1 else 4 * m - 2) * quantum
  let high := (4 * m + 2) * quantum
  let d := value / step
  let lowerHit : Bool := low < d * step || (low == d * step && m % 2 == 0)
  let upperHit : Bool := (d + 1) * step < high || ((d + 1) * step == high && m % 2 == 0)
  match lowerHit, upperHit with
  | false, false => none
  | true, false => some d
  | false, true => some (d + 1)
  | true, true =>
    match compare (2 * value) ((2 * d + 1) * step), tie with
    | .lt, _ => some d
    | .gt, _ => some (d + 1)
    | .eq, .up => some (d + 1)
    | .eq, .toEven => some (if d % 2 = 0 then d else d + 1)

/-- The decimal number with the fewest digits among those that round to `m * 2 ^ q`, for `0 < m`,
and of these the nearest to it. -/
def shortest (tie : Tie) (m : Nat) (q : Int) : Decimal :=
  let whole := exact m q
  let found := (List.range 17).findSome? fun n : Nat =>
    let g := whole.point - (n + 1)
    (onGrid tie m q g).map fun d => ⟨d, g⟩
  (found.getD whole).trim 17

end Decimal

end DeskCalculator
