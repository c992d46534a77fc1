import DeskCalculator.Fault

/-!
# DeskCalculator.Settings — the angle unit and the precision

The angle unit says how the circle functions read their argument and their inverses write their
result; the precision is the number of decimal places to which the results of the circle functions
and the logarithms are rounded.  A precision is valid up to fifteen.
-/

namespace DeskCalculator

/-- The unit in which angles are given and taken. -/
inductive AngleUnit
  | degrees
  | radians
deriving DecidableEq

namespace AngleUnit

/-- The name of a unit. -/
def name : AngleUnit → String
  | degrees => "degrees"
  | radians => "radians"

/-- The unit of a name; the spelling has to be exact. -/
def ofName (text : String) : Except Fault AngleUnit :=
  if text = "degrees" then .ok degrees
  else if text = "radians" then .ok radians
  else .error (.unknownAngleUnit text)

/-- The binary64 number nearest to the circle number. -/
def pi : Float := 3.141592653589793

/-- An angle in the unit, in radians. -/
def toRadians : AngleUnit → Float → Float
  | degrees, angle => angle * (pi / 180)
  | radians, angle => angle

/-- An angle in radians, in the unit. -/
def ofRadians : AngleUnit → Float → Float
  | degrees, angle => angle * (180 / pi)
  | radians, angle => angle

end AngleUnit

/-- What the circle functions and the logarithms read when they are called. -/
structure Settings where
  angleUnit : AngleUnit := .degrees
  precision : UInt32 := 10
deriving DecidableEq

namespace Settings

/-- The greatest valid precision. -/
def maxPrecision : Nat := 15

/-- The precision that a whole number asks for. -/
def checkPrecision (n : Int) : Except Fault UInt32 :=
  if 0 ≤ n ∧ n ≤ maxPrecision then .ok (.ofNat n.toNat) else .error (.badPrecision (toString n))

/-- Whether the precision is valid. -/
def Valid (s : Settings) : Prop := s.precision.toNat ≤ maxPrecision

instance (s : Settings) : Decidable s.Valid := inferInstanceAs (Decidable (_ ≤ _))

/-- Refuses settings whose precision is not valid. -/
def check (s : Settings) : Except Fault Unit := do
  let _ ← checkPrecision s.precision.toNat
  return ()

end Settings

end DeskCalculator
