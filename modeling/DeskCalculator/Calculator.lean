import DeskCalculator.Memory
import DeskCalculator.Operation.Basic

/-!
# DeskCalculator.Calculator — the state of the calculator

The state holds the last result, the history of calculations, the memory, the settings, and a clock
with the number of readings already taken from it.  A computation that succeeds sets the last
result, adds one entry to the history and takes one reading; one that fails changes nothing.  A use
of the memory takes one reading and leaves the history alone.
-/

namespace DeskCalculator

/-- The state of the calculator. -/
structure Calculator where
  lastResult : Float := 0
  history : List Calculation := []
  memory : Memory := {}
  settings : Settings := {}
  clock : Clock
  readings : Nat := 0

/-- The four operations that go on from the last result. -/
inductive Chain
  | add
  | subtract
  | multiply
  | divide
deriving DecidableEq

namespace Chain

/-- The operation on two numbers that is carried out. -/
def operation : Chain → Binary
  | add => .add
  | subtract => .subtract
  | multiply => .multiply
  | divide => .divide

/-- The sign of the operation. -/
def symbol : Chain → String
  | add => "+"
  | subtract => "-"
  | multiply => "*"
  | divide => "/"

end Chain

namespace Calculator

/-- The calculator under other settings, if they are valid. -/
def withSettings (c : Calculator) (settings : Settings) : Except Fault Calculator := do
  settings.check
  return { c with settings }

/-- A fresh calculator with the given settings. -/
def new (clock : Clock) (settings : Settings := {}) : Except Fault Calculator :=
  withSettings { clock } settings

/-- The next reading of the clock. -/
def now (c : Calculator) : Instant := c.clock.reading c.readings

/-- The entry that is made for a computation with some result. -/
def entry (c : Calculator) (x : Computation) (result : Float) : Calculation :=
  { operation := x.tag
    first := x.first
    second := x.second
    result := result
    time := c.now }

/-- The state after a computation with some result. -/
def record (c : Calculator) (x : Computation) (result : Float) : Calculator :=
  { c with
    lastResult := result
    history := c.history ++ [c.entry x result]
    readings := c.readings + 1 }

/-- Carries out a computation under the settings in force. -/
def compute (c : Calculator) (x : Computation) : Calculator × Except Fault Float :=
  match x.result c.settings with
  | .ok result => (c.record x result, .ok result)
  | .error fault => (c, .error fault)

/-- Carries out an operation on the last result and `b`. -/
def chain (c : Calculator) (op : Chain) (b : Float) : Calculator × Except Fault Float :=
  c.compute (.binary op.operation c.lastResult b)

/-- Uses the memory register. -/
def access (c : Calculator) (request : MemoryRequest) : Calculator × Float :=
  let (memory, answer) := c.memory.access request c.now
  ({ c with memory, readings := c.readings + 1 }, answer)

/-- Empties the history and sets the last result to zero; the memory keeps its log. -/
def clearHistory (c : Calculator) : Calculator := { c with history := [], lastResult := 0 }

/-- Changes to the angle unit of a name. -/
def setAngleUnit (c : Calculator) (text : String) : Calculator × Except Fault AngleUnit :=
  match AngleUnit.ofName text with
  | .ok angleUnit => ({ c with settings := { c.settings with angleUnit } }, .ok angleUnit)
  | .error fault => (c, .error fault)

/-- Changes to a precision. -/
def setPrecision (c : Calculator) (n : Int) : Calculator × Except Fault UInt32 :=
  match Settings.checkPrecision n with
  | .ok precision => ({ c with settings := { c.settings with precision } }, .ok precision)
  | .error fault => (c, .error fault)

end Calculator

end DeskCalculator
