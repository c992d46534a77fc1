/-!
# DeskCalculator.Elementary.FixedPoint — the series behind the elementary functions

A real number is held as a whole number of units of `2 ^ -places`.  At 256 places the few hundred
units lost to cutting off lie far below half a unit in the last place of a binary64 result, so the
result that is rounded from such a sum is the binary64 number nearest to the exact value.
-/

namespace DeskCalculator.Elementary

/-- The number of binary places behind the point. -/
def places : Nat := 256

/-- The number one. -/
def one : Nat := Nat.pow 2 places

/-- `m * 2 ^ q` in units of `2 ^ -places`, cut off. -/
def fixed (m : Nat) (q : Int) : Nat :=
  if 0 ≤ q + places then m * Nat.pow 2 (q + places).toNat
  else m / Nat.pow 2 (-(q + places)).toNat

/-- The terms `p / (2 k + 1)`, `p z² / (2 k + 3)`, … with alternating signs for `σ = -1`: the odd
series of the arctangent (`σ = -1`) and of the area tangent (`σ = 1`), for `z² = square`. -/
def oddSeries (σ square : Int) : (terms : Nat) → (k : Nat) → (p : Int) → Int
  | 0, _, _ => 0
  | terms + 1, k, p =>
    p / (2 * k + 1) + oddSeries σ square terms (k + 1) (σ * (p * square / one))

/-- The terms `p - p r² / ((n + 1) (n + 2)) + …`: the series of the sine from `p = r`, `n = 1`, and
of the cosine from `p = 1`, `n = 0`, for `r² = square`. -/
def circleSeries (square : Int) : (terms : Nat) → (n : Nat) → (p : Int) → Int
  | 0, _, _ => 0
  | terms + 1, n, p =>
    p - circleSeries square terms (n + 2) (p * square / one / ((n + 1) * (n + 2)))

/-- The terms `p + p r / (n + 1) + …`: the series of the exponential from `p = 1`, `n = 0`. -/
def exponentialSeries (r : Int) : (terms : Nat) → (n : Nat) → (p : Int) → Int
  | 0, _, _ => 0
  | terms + 1, n, p => p + exponentialSeries r terms (n + 1) (p * r / one / (n + 1))

/-- The arctangent of `1 / n`, in the units of `p = unit / n` at `k = 0`. -/
def reciprocalArctangent (n : Nat) : (terms : Nat) → (k : Nat) → (p : Int) → Int
  | 0, _, _ => 0
  | terms + 1, k, p =>
    p / (2 * k + 1) - reciprocalArctangent n terms (k + 1) (p / (n * n))

/-- The number of binary places of `piLong`; enough to reduce every finite binary64 angle. -/
def piPlaces : Nat := 1500

/-- The circle number in units of `2 ^ -piPlaces`, `16 atan (1 / 5) - 4 atan (1 / 239)`. -/
def piLong : Nat :=
  (16 * reciprocalArctangent 5 330 0 (Nat.pow 2 piPlaces / 5)
    - 4 * reciprocalArctangent 239 100 0 (Nat.pow 2 piPlaces / 239)).toNat

/-- The circle number. -/
def pi : Nat := piLong / Nat.pow 2 (piPlaces - places)

/-- The natural logarithm of two, twice the area tangent of a third. -/
def logTwo : Int := 2 * oddSeries 1 (one / 9) 90 0 (one / 3)

end DeskCalculator.Elementary
