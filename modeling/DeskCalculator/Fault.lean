import DeskCalculator.Decimal.Style

/-!
# DeskCalculator.Fault — why something is refused

Nothing in the library stops a session: whatever cannot be done is answered with a `Fault`, which
carries the offending number or text, and `Fault.message` words it for the user.
-/

namespace DeskCalculator

/-- A reason for refusing an operation, a setting or a line. -/
inductive Fault
  /-- The divisor is a zero of either sign. -/
  | divisionByZero
  /-- The square root of a number below zero. -/
  | negativeRoot (x : Float)
  /-- The factorial of a number below zero. -/
  | negativeFactorial (x : Float)
  /-- The factorial of a number that is not whole. -/
  | fractionalFactorial (x : Float)
  /-- An inverse sine or cosine, named by `function`, of a number beyond one. -/
  | outsideUnitInterval (function : String) (x : Float)
  /-- A logarithm of a number that is not above zero. -/
  | nonPositiveLogarithm (x : Float)
  /-- A logarithm to a base that is not above zero, or is one. -/
  | badLogarithmBase (base : Float)
  /-- A text that names no angle unit. -/
  | unknownAngleUnit (text : String)
  /-- A text that is not a whole number from 0 to 15. -/
  | badPrecision (text : String)
  /-- The first word of a line names no command. -/
  | unknownCommand (name : String)
  /-- The number of arguments is not that of the command, which is used like `usage`. -/
  | wrongUsage (usage : String)
  /-- A word that is not a number, where only numbers are taken. -/
  | notNumeric (token : String)
deriving DecidableEq

/-- The wording of a fault. -/
def Fault.message : Fault → String
  | .divisionByZero => "Division by zero is not allowed"
  | .negativeRoot x => "Cannot calculate square root of negative number: " ++ Decimal.plain.write x
  | .negativeFactorial x =>
    "Factorial is not defined for negative numbers: " ++ Decimal.plain.write x
  | .fractionalFactorial x => "Factorial is only defined for integers: " ++ Decimal.plain.write x
  | .outsideUnitInterval function x =>
    function ++ " argument must be between -1 and 1, got " ++ Decimal.plain.write x
  | .nonPositiveLogarithm x =>
    "Logarithm is not defined for non-positive numbers: " ++ Decimal.plain.write x
  | .badLogarithmBase base =>
    "Logarithm base must be positive and not equal to 1, got " ++ Decimal.plain.write base
  | .unknownAngleUnit text => "Angle mode must be 'degrees' or 'radians', got '" ++ text ++ "'"
  | .badPrecision text => "Precision must be between 0 and 15, got '" ++ text ++ "'"
  | .unknownCommand name =>
    "Unknown command: " ++ name ++ ". Type 'help' for available commands."
  | .wrongUsage usage => "Usage: " ++ usage
  | .notNumeric token => "Not a number: '" ++ token ++ "'"

end DeskCalculator
