import DeskCalculator.Calculator
import DeskCalculator.Display

/-!
# DeskCalculator.Instruction — what a line asks the calculator to do

An instruction is a command whose arguments have been read.  Performing it may change the calculator
and answers with a reply or a fault; a fault leaves the calculator as it was.
-/

namespace DeskCalculator

/-- The constants that can be shown. -/
inductive Constant
  | pi
  | euler
deriving DecidableEq

namespace Constant

/-- The name of a constant. -/
def name : Constant → String
  | pi => "pi"
  | euler => "e"

/-- The binary64 number nearest to a constant. -/
def value : Constant → Float
  | pi => AngleUnit.pi
  | euler => 2.718281828459045

end Constant

/-- A command with its arguments. -/
inductive Instruction
  | compute (x : Computation)
  | chain (op : Chain) (b : Float)
  | memory (request : MemoryRequest)
  | showLast
  | showHistory
  | showMemoryLog
  | showSettings
  | setAngleUnit (text : String)
  | setPrecision (n : Int)
  | showConstant (c : Constant)
  | clearHistory
  | help
  | exit
deriving DecidableEq

/-- What is answered to an instruction. -/
structure Reply where
  text : String
  /-- Whether the session ends with this reply. -/
  exits : Bool := false
deriving DecidableEq

namespace Instruction

/-- The text of a reply to a use of the memory register. -/
def memoryText (answer : Float) : MemoryRequest → String
  | .store _ => "Memory store: " ++ Display.number answer
  | .retrieve => "Memory recall: " ++ Display.number answer
  | .clear => "Memory clear: 0 (was " ++ Display.number answer ++ ")"
  | .add _ => "Memory add: " ++ Display.number answer
  | .subtract _ => "Memory subtract: " ++ Display.number answer

/-- The text of the history. -/
def historyText (history : List Calculation) : String :=
  if history.isEmpty then "No operations in history"
  else "Operation history:\n" ++ Display.numbered Display.calculation history

/-- The text of the log of the memory. -/
def memoryLogText (log : List MemoryAccess) : String :=
  if log.isEmpty then "No memory operations"
  else "Memory history:\n" ++ Display.numbered Display.memoryAccess log

/-- The text of the settings. -/
def settingsText (s : Settings) : String :=
  "Angle mode: " ++ s.angleUnit.name ++ "\nPrecision: " ++ toString s.precision.toNat

/-- A step of the calculator with its outcome put into words. -/
def reply (words : α → String) (step : Calculator × Except Fault α) :
    Calculator × Except Fault Reply :=
  (step.1, step.2.map fun a => { text := words a })

/-- A reply from a calculator that stays as it is. -/
def say (c : Calculator) (text : String) : Calculator × Except Fault Reply := (c, .ok { text })

/-- Performs an instruction; `help` is the text that is shown when help is asked for. -/
def perform (help : String) (i : Instruction) (c : Calculator) : Calculator × Except Fault Reply :=
  match i with
  | compute x => reply (Display.call x.tag x.first x.second) (c.compute x)
  | chain op b =>
    let words (result : Float) : String :=
      Display.number c.lastResult ++ " " ++ op.symbol ++ " " ++ Display.number b ++ " = "
        ++ Display.number result
    reply words (c.chain op b)
  | memory request =>
    let (c, answer) := c.access request
    say c (memoryText answer request)
  | showLast => say c ("Last result: " ++ Display.number c.lastResult)
  | showHistory => say c (historyText c.history)
  | showMemoryLog => say c (memoryLogText c.memory.log)
  | showSettings => say c (settingsText c.settings)
  | setAngleUnit text =>
    reply (fun unit : AngleUnit => "Angle mode set to " ++ unit.name) (c.setAngleUnit text)
  | setPrecision n =>
    reply (fun p : UInt32 => "Precision set to " ++ toString p.toNat) (c.setPrecision n)
  | showConstant k => say c (k.name ++ " = " ++ Decimal.plain.write k.value)
  | clearHistory => say c.clearHistory "History cleared"
  | Instruction.help => say c help
  | exit => (c, .ok { text := "Goodbye!", exits := true })

end Instruction

end DeskCalculator
