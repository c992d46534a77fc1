import DeskCalculator.Config
import DeskCalculator.Interpreter

/-!
# DeskCalculator.Session.Basic — a series of lines and what is said to them

A session owns an interpreter and feeds it lines until one of them ends the session.  A fault is
put into words and counted, and the session goes on.  A session that has ended cannot be started
again.
-/

namespace DeskCalculator

/-- The counts of a session. -/
structure Summary where
  /-- The lines with words that were carried out, with or without a fault. -/
  commands : Nat := 0
  /-- Those of them that had a fault. -/
  errors : Nat := 0
deriving DecidableEq

/-- The state of a session. -/
structure Session where
  interpreter : Interpreter
  config : Config
  summary : Summary := {}
  /-- Whether the session has ended. -/
  exited : Bool := false

namespace Session

/-- A session that has not been started, with the calculator and the manners of a config. -/
def new (config : Config) (clock : Clock) : Except Fault Session := do
  let calculator ← Calculator.new clock config.settings
  return { interpreter := { calculator, strictness := config.strictness }, config }

/-- Whether lines are carried out. -/
def running (s : Session) : Bool := s.interpreter.running

/-- Starts a session that has not ended. -/
def start (s : Session) : Session :=
  if s.exited then s else { s with interpreter := s.interpreter.start }

/-- The words for a fault. -/
def complaint (fault : Fault) : String := "Error: " ++ fault.message

/-- Carries out a line, with the text to show for it; there is none for a line without words, nor
for any line while the session is not running. -/
def processLine (s : Session) (line : String) : Session × Option String :=
  if !s.running then (s, none)
  else
    let (interpreter, outcome) := s.interpreter.submit line
    let s := { s with interpreter }
    match outcome with
    | .ok none => (s, none)
    | .ok (some reply) =>
      ({ s with
          summary := { s.summary with commands := s.summary.commands + 1 }
          exited := s.exited || !interpreter.running },
        some reply.text)
    | .error fault =>
      ({ s with summary := ⟨s.summary.commands + 1, s.summary.errors + 1⟩ },
        some (complaint fault))

/-- Carries out lines as long as the session is running, with the texts to show for them. -/
def processLines (s : Session) : List String → Session × List String
  | [] => (s, [])
  | line :: rest =>
    if !s.running then (s, [])
    else
      let (s, shown) := s.processLine line
      let (s, transcript) := s.processLines rest
      (s, shown.toList ++ transcript)

/-- Starts the session and carries out lines, with the texts to show for them. -/
def runScript (s : Session) (lines : List String) : Session × List String :=
  s.start.processLines lines

end Session

end DeskCalculator
