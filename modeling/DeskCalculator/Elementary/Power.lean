import DeskCalculator.Binary64.Integral
import DeskCalculator.Elementary.Logarithm

/-!
# DeskCalculator.Elementary.Power — a number raised to the power of a number

`power x y` is the binary64 number nearest to the exact power.  Where the power is a number of at
most 54 binary digits, or a power of two, it is computed exactly, since it may lie on the border
between two results; elsewhere it is `exp (y log x)`.
-/

namespace DeskCalculator.Elementary

open Binary64

/-- `± exp t`, an infinity or a zero when the result leaves the range by far. -/
def exponential (s : Sign) (t : Int) : Float :=
  if 800 * one < t then infinity s
  else if t < -(800 * one) then zero s
  else
    let k := t / logTwo
    nearest s (exponentialSeries (t - k * logTwo) 70 0 one).toNat (k - places)

/-- `n * 2 ^ e` with the factors two of `n` moved into the exponent. -/
def withoutTwos : (fuel : Nat) → (n : Nat) → (e : Int) → Nat × Int
  | 0, n, e => (n, e)
  | fuel + 1, n, e => if n % 2 = 0 then withoutTwos fuel (n / 2) (e + 1) else (n, e)

/-- The `2 ^ count`-th root of `m * 2 ^ e`, when it is again a whole number times a power of two. -/
def exactRoot : (count : Nat) → (m : Nat) → (e : Int) → Option (Nat × Int)
  | 0, m, e => some (m, e)
  | count + 1, m, e =>
    if m.sqrt * m.sqrt = m ∧ e % 2 = 0 then exactRoot count m.sqrt (e / 2) else none

/-- The power of a number `m * 2 ^ e`, `m` odd, to a whole exponent, when it has few digits. -/
def shortPower (s : Sign) (m : Nat) (e : Int) (k : Int) : Option Float :=
  if m = 1 then
    if 1100 < e * k then some (infinity s)
    else if e * k < -1200 then some (zero s)
    else some (nearest s 1 (e * k))
  else if 0 < k ∧ m.log2 * k ≤ 54 then some (nearest s (Nat.pow m k.toNat) (e * k))
  else none

/-- `± (m * 2 ^ q) ^ y` for `y = τ n * 2 ^ r`, all of them finite and not zero. -/
def finitePower (s : Sign) (m : Nat) (q : Int) (τ : Sign) (n : Nat) (r : Int) : Float :=
  let (m', q') := withoutTwos 53 m q
  let (n', r') := withoutTwos 53 n r
  let short := do
    let (m', q') ← if r' < -12 then none else exactRoot (-r').toNat m' q'
    if 64 < r' then none else shortPower s m' q' (τ.apply (n' * Nat.pow 2 r'.toNat))
  short.getD <|
    let t := fixedLog m q * τ.apply n
    exponential s (if 0 ≤ r then t * Nat.pow 2 r.toNat else t / Nat.pow 2 (-r).toNat)

/-- Whether `y` is an odd whole number. -/
def isOdd (y : Float) : Bool :=
  match parts y with
  | .finite _ m q _ => let (_, e) := withoutTwos 53 m q; e == 0
  | _ => false

/-- `x` raised to the power `y`.  The power zero is one and so is every power of one, NaN or not; a
negative number has powers to whole exponents only. -/
def power (x y : Float) : Float :=
  if y == 0 || x == 1 then 1
  else
    let s : Sign := if isNegative x && isOdd y then .negative else .positive
    match parts x, parts y with
    | .notANumber, _ | _, .notANumber => notANumber
    | .zero _, _ => if isNegative y then infinity s else zero s
    | _, .infinity τ =>
      if x.abs == 1 then 1
      else
        match τ with
        | .positive => if 1 < x.abs then infinity .positive else zero .positive
        | .negative => if 1 < x.abs then zero .positive else infinity .positive
    | .infinity _, _ => if isNegative y then zero s else infinity s
    | .finite .negative m q _, .finite τ n r _ =>
      if isWhole y then finitePower s m q τ n r else notANumber
    | .finite .positive m q _, .finite τ n r _ => finitePower s m q τ n r
    | _, .zero _ => 1

end DeskCalculator.Elementary
