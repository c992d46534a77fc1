import DeskCalculator.Strictness
import DeskCalculator.Settings

/-!
# DeskCalculator.Config — what a session starts from

A config gives the settings of the calculator and the manners of the session.  Every part of it has
a default.  The precision of a config may be out of range; then no session starts from it.
-/

namespace DeskCalculator

/-- What a session starts from. -/
structure Config where
  angleUnit : AngleUnit := .degrees
  precision : UInt32 := 10
  /-- Whether words that are no numbers are refused. -/
  strictNumbers : Bool := false
  /-- What is written before each line is read. -/
  prompt : String := "> "
  /-- Whether each line is written back before its reply. -/
  echo : Bool := false
deriving DecidableEq

namespace Config

/-- The settings of the calculator. -/
def settings (c : Config) : Settings := ⟨c.angleUnit, c.precision⟩

/-- How words are taken for numbers. -/
def strictness (c : Config) : Strictness := if c.strictNumbers then .strict else .lenient

end Config

end DeskCalculator
