import DeskCalculator.Command.Basic
import DeskCalculator.Text.Quoted

/-!
# DeskCalculator.Inspection — texts that show how a value is made up

The type of a value and the names of its parts, on one line, with texts in quotes and numbers in
the debug style.
-/

namespace DeskCalculator

/-- A value with named parts. -/
def inspectRecord (type : String) (parts : List (String × String)) : String :=
  let part (p : String × String) : String := p.1 ++ ": " ++ p.2
  type ++ " \x7b " ++ ", ".intercalate (parts.map part) ++ " \x7d"

/-- A number as part of a value. -/
def inspectNumber (x : Float) : String := Decimal.debug.write x

/-- How an angle unit is made up. -/
def AngleUnit.inspect : AngleUnit → String
  | degrees => "Degrees"
  | radians => "Radians"

/-- How settings are made up. -/
def Settings.inspect (s : Settings) : String :=
  inspectRecord "Settings"
    [("angle_mode", s.angleUnit.inspect), ("precision", toString s.precision.toNat)]

/-- How a calculator is made up. -/
def Calculator.inspect (c : Calculator) : String :=
  inspectRecord "CalculatorState"
    [("last_result", inspectNumber c.lastResult), ("history_len", toString c.history.length),
      ("memory", inspectNumber c.memory.value), ("settings", c.settings.inspect)]

/-- How a command is made up. -/
def Command.inspect {α : Type} (c : Command α) : String :=
  inspectRecord "CommandSpec"
    [("name", Text.quoted c.name), ("arity", toString c.arity), ("category", c.category.name),
      ("usage", Text.quoted c.usage)]

/-- How a fault is made up. -/
def Fault.inspect : Fault → String
  | .divisionByZero => "DivisionByZero"
  | .negativeRoot x => "NegativeRoot(" ++ inspectNumber x ++ ")"
  | .negativeFactorial x => "NegativeFactorial(" ++ inspectNumber x ++ ")"
  | .fractionalFactorial x => "NonIntegerFactorial(" ++ inspectNumber x ++ ")"
  | .outsideUnitInterval function x =>
    inspectRecord "DomainError" [("function", Text.quoted function), ("value", inspectNumber x)]
  | .nonPositiveLogarithm x => "NonPositiveLogarithm(" ++ inspectNumber x ++ ")"
  | .badLogarithmBase base => "InvalidLogBase(" ++ inspectNumber base ++ ")"
  | .unknownAngleUnit text => "InvalidAngleMode(" ++ Text.quoted text ++ ")"
  | .badPrecision text => "InvalidPrecision(" ++ Text.quoted text ++ ")"
  | .unknownCommand name => "UnknownCommand(" ++ Text.quoted name ++ ")"
  | .wrongUsage usage => "UsageError(" ++ Text.quoted usage ++ ")"
  | .notNumeric token => "ParseError(" ++ Text.quoted token ++ ")"

end DeskCalculator
