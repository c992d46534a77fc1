/-!
# DeskCalculator.Binary64.Parts — a number as sign, significand and exponent

`parts x` opens a binary64 number into NaN, an infinity, a zero or `± m * 2 ^ q`.  `nearest s m q`
goes the other way: it is the binary64 number nearest to `± m * 2 ^ q`, halves to the even
significand, an infinity when the number is too large.  All that the library computes from the
digits of a number, or puts together from digits, goes through these two.
-/

namespace DeskCalculator.Binary64

/-- Plus or minus. -/
abbrev Sign := Float.Model.UnpackedFloat.Sign

/-- NaN, an infinity, a zero or `± m * 2 ^ q` with `0 < m`. -/
abbrev Parts := Float.Model.UnpackedFloat

/-- What the bits of `x` say. -/
def parts (x : Float) : Parts := x.toModel.unpack

/-- The number nearest to `± m * 2 ^ q`; a tie goes to the even significand. -/
def nearest (s : Sign) (m : Nat) (q : Int) : Float :=
  .ofModel (.pack (.round .binary64 s m q))

/-- The number nearest to `n * 2 ^ q`, `+0` for `n = 0`. -/
def nearestInt (n : Int) (q : Int) : Float :=
  nearest (if n < 0 then .negative else .positive) n.natAbs q

/-- The zero of a sign. -/
def zero (s : Sign) : Float := nearest s 0 0

/-- The infinity of a sign. -/
def infinity (s : Sign) : Float := .ofModel (.pack (.infinity s))

/-- The one number that is not a number. -/
def notANumber : Float := .ofModel (.pack .notANumber)

/-- Whether the sign of `x` is minus; `-0` has one, NaN has none. -/
def isNegative (x : Float) : Bool :=
  match parts x with
  | .infinity s | .zero s | .finite s _ _ _ => s == .negative
  | .notANumber => false

end DeskCalculator.Binary64
