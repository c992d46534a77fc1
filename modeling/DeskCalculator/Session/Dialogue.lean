import DeskCalculator.Session.Basic
import DeskCalculator.Text.Lines

/-!
# DeskCalculator.Session.Dialogue — a session over a byte stream

A dialogue shows a banner, and then, as long as the session is running, a prompt, reads a line,
shows it again if the config says so, and shows what the session says to it.  It is over at the end
of the input, and breaks off at a line that is not UTF-8, with the session still running.  Where a
reply is to be seen before the next line is typed, it is carried on by turns.
-/

namespace DeskCalculator

/-- How a dialogue came to its end. -/
inductive Ending
  /-- The session ended, or the input did. -/
  | complete
  /-- A line was not UTF-8. -/
  | invalidText
deriving DecidableEq

/-- What a dialogue leaves behind. -/
structure Dialogue where
  session : Session
  /-- All that was shown. -/
  output : String
  ending : Ending

namespace Session

/-- What is shown at the start of a dialogue. -/
def banner : String :=
  "calcshell\nType 'help' for available commands, 'exit' to quit\n"

/-- Carries out a line, with all that is shown for it: the line again, if the config says so, and
the text of the session. -/
def exchange (s : Session) (line : String) : Session × String :=
  let echo := if s.config.echo then line ++ "\n" else ""
  let (s, shown) := s.processLine line
  (s, echo ++ shown.elim "" (· ++ "\n"))

/-- The dialogue over some lines, without the banner. -/
def converse (s : Session) : List (List UInt8) → Dialogue
  | [] => ⟨s, if s.running then s.config.prompt else "", .complete⟩
  | bytes :: rest =>
    if !s.running then ⟨s, "", .complete⟩
    else
      match Text.decode? bytes with
      | none => ⟨s, s.config.prompt, .invalidText⟩
      | some line =>
        let (s', shown) := s.exchange line
        let d := s'.converse rest
        { d with output := s.config.prompt ++ shown ++ d.output }

/-- Starts the session and runs a dialogue over the lines of a byte stream. -/
def run (s : Session) (input : List UInt8) : Dialogue :=
  let d := s.start.converse (Text.lines input)
  { d with output := banner ++ d.output }

/-! ## Dialogues by turns -/

/-- The prompt for the next line; there is none if the session is not running. -/
def nextPrompt (s : Session) : String := if s.running then s.config.prompt else ""

/-- Starts the session, with what is shown before the first line. -/
def greet (s : Session) : Dialogue := ⟨s.start, banner ++ s.start.nextPrompt, .complete⟩

/-- Carries out a line of a dialogue, with what is shown from there to the next line. -/
def turn (s : Session) (bytes : List UInt8) : Dialogue :=
  match Text.decode? bytes with
  | none => ⟨s, "", .invalidText⟩
  | some line =>
    let (s, shown) := s.exchange line
    ⟨s, shown ++ s.nextPrompt, .complete⟩

end Session

/-- Whether a dialogue waits for a line. -/
def Dialogue.waits (d : Dialogue) : Bool := d.session.running && d.ending == .complete

end DeskCalculator
