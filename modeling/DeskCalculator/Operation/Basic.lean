import DeskCalculator.Binary64.Remainder
import DeskCalculator.Binary64.TenPower
import DeskCalculator.Elementary.Circle
import DeskCalculator.Elementary.CubeRoot
import DeskCalculator.Elementary.Power
import DeskCalculator.Operation.Factorial
import DeskCalculator.Settings

/-!
# DeskCalculator.Operation.Basic — the operations of the calculator

Eleven operations take one number and seven take two.  Each has a tag, under which it is recorded,
and a value, or a fault where it has none.  A comparison with NaN is false, so a NaN passes every
guard but that of the factorial and goes on into the value.  The values of the circle functions and
of the logarithms are rounded to the precision in force; all others stand as computed.
-/

namespace DeskCalculator

/-- The operations on one number. -/
inductive Unary
  | squareRoot
  | cubeRoot
  | factorial
  | sine
  | cosine
  | tangent
  | arcsine
  | arccosine
  | arctangent
  | commonLog
  | naturalLog
deriving DecidableEq

/-- The operations on two numbers. -/
inductive Binary
  | add
  | subtract
  | multiply
  | divide
  | modulus
  | power
  | logarithm
deriving DecidableEq

/-- `value x` for `x` from minus one to one. -/
def onUnitInterval (function : String) (value : Float → Float) (x : Float) : Except Fault Float :=
  if x < -1 || 1 < x then .error (.outsideUnitInterval function x) else .ok (value x)

/-- `value x` for `x` above zero. -/
def onPositive (value : Float → Float) (x : Float) : Except Fault Float :=
  if x ≤ 0 then .error (.nonPositiveLogarithm x) else .ok (value x)

namespace Unary

/-- The tag under which an operation is recorded. -/
def tag : Unary → String
  | squareRoot => "sqrt"
  | cubeRoot => "cbrt"
  | factorial => "factorial"
  | sine => "sin"
  | cosine => "cos"
  | tangent => "tan"
  | arcsine => "asin"
  | arccosine => "acos"
  | arctangent => "atan"
  | commonLog => "log10"
  | naturalLog => "ln"

/-- Whether the value is rounded to the precision in force. -/
def isRounded : Unary → Bool
  | squareRoot | cubeRoot | factorial => false
  | sine | cosine | tangent | arcsine | arccosine | arctangent | commonLog | naturalLog => true

/-- The value at `x`, with angles in `unit`, before any rounding. -/
def value (unit : AngleUnit) : Unary → Float → Except Fault Float
  | squareRoot, x => if x < 0 then .error (.negativeRoot x) else .ok x.sqrt
  | cubeRoot, x => .ok (Elementary.cubeRoot x)
  | factorial, x => DeskCalculator.factorial x
  | sine, x => .ok (Elementary.sine (unit.toRadians x))
  | cosine, x => .ok (Elementary.cosine (unit.toRadians x))
  | tangent, x => .ok (Elementary.tangent (unit.toRadians x))
  | arcsine, x => onUnitInterval "asin" (fun x => unit.ofRadians (Elementary.arcsine x)) x
  | arccosine, x => onUnitInterval "acos" (fun x => unit.ofRadians (Elementary.arccosine x)) x
  | arctangent, x => .ok (unit.ofRadians (Elementary.arctangent x))
  | commonLog, x => onPositive Elementary.commonLog x
  | naturalLog, x => onPositive Elementary.naturalLog x

end Unary

namespace Binary

/-- The tag under which an operation is recorded. -/
def tag : Binary → String
  | add => "add"
  | subtract => "subtract"
  | multiply => "multiply"
  | divide => "divide"
  | modulus => "modulus"
  | power => "power"
  | logarithm => "log"

/-- Whether the value is rounded to the precision in force. -/
def isRounded : Binary → Bool
  | logarithm => true
  | add | subtract | multiply | divide | modulus | power => false

/-- The value at `a` and `b`; of a logarithm `a` is the base. -/
def value : Binary → Float → Float → Except Fault Float
  | add, a, b => .ok (a + b)
  | subtract, a, b => .ok (a - b)
  | multiply, a, b => .ok (a * b)
  | divide, a, b => if b == 0 then .error .divisionByZero else .ok (a / b)
  | modulus, a, b => .ok (Binary64.remainder a b)
  | power, a, b => .ok (Elementary.power a b)
  | logarithm, a, b =>
    if a ≤ 0 || a == 1 then .error (.badLogarithmBase a)
    else onPositive (fun b => Elementary.naturalLog b / Elementary.naturalLog a) b

end Binary

/-- An operation with its operands. -/
inductive Computation
  | unary (f : Unary) (x : Float)
  | binary (f : Binary) (a b : Float)
deriving DecidableEq

namespace Computation

/-- The tag of the operation. -/
def tag : Computation → String
  | unary f _ => f.tag
  | binary f _ _ => f.tag

/-- The first operand. -/
def first : Computation → Float
  | unary _ x => x
  | binary _ a _ => a

/-- The second operand, if there is one. -/
def second : Computation → Option Float
  | unary _ _ => none
  | binary _ _ b => some b

/-- Whether the value is rounded to the precision in force. -/
def isRounded : Computation → Bool
  | unary f _ => f.isRounded
  | binary f _ _ => f.isRounded

/-- The value before any rounding. -/
def value (unit : AngleUnit) : Computation → Except Fault Float
  | unary f x => f.value unit x
  | binary f a b => f.value a b

/-- The result under some settings. -/
def result (settings : Settings) (c : Computation) : Except Fault Float :=
  (c.value settings.angleUnit).map fun x =>
    if c.isRounded then Binary64.roundTo x settings.precision else x

end Computation

end DeskCalculator
