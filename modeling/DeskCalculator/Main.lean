import DeskCalculator.CommandLine.Program

/-!
# DeskCalculator.Main — the program

Files and streams are read and written here; all that is decided is decided elsewhere.  Over the
standard input a dialogue is carried on by turns, so that each reply is seen before the next line is
typed.
-/

namespace DeskCalculator.Main

open CommandLine

/-- The bytes of the file at a path, if it can be read. -/
def readFile (path : String) : IO (Option (List UInt8)) := do
  try
    return some (← IO.FS.readBinFile path).toList
  catch _ => return none

/-- The bytes of the files that some options name. -/
def readFiles (o : Options) : IO (String → Option (List UInt8)) := do
  let paths := o.config.toList ++ o.script.toList
  let files ← paths.mapM fun path => do return (path, ← readFile path)
  return fun path => (files.lookup path).join

/-- Writes a text at once. -/
def put (text : String) : IO Unit := do
  let output ← IO.getStdout
  output.putStr text
  output.flush

/-- Reads the bytes of a line, after those of `start`, which are given backward; the line feed is
the last of them, unless the input ends before it. -/
partial def readBytes (input : IO.FS.Stream) (start : List UInt8) : IO (List UInt8) := do
  match (← input.read 1).toList with
  | [] => return start.reverse
  | b :: _ => if b = 10 then return (b :: start).reverse else readBytes input (b :: start)

/-- Reads a line of the standard input; there is none at its end. -/
def readLine : IO (Option (List UInt8)) := do
  return (Text.lines (← readBytes (← IO.getStdin) [])).head?

/-- Goes on with a dialogue over the standard input, one turn after the other. -/
partial def goOn (d : Dialogue) : IO Ending := do
  put d.output
  if !d.waits then return d.ending
  match ← readLine with
  | none => return d.ending
  | some bytes => goOn (d.session.turn bytes)

/-- Writes the words for a failure and gives its exit code. -/
def fail (failure : Failure) : IO UInt32 := do
  (← IO.getStderr).putStr (failure.message ++ "\n")
  return failure.code

/-- The program over the standard input. -/
def interactive (s : Session) : IO UInt32 := do
  match failureOf (← goOn s.greet) with
  | none => return 0
  | some failure => fail failure

end DeskCalculator.Main

open DeskCalculator DeskCalculator.CommandLine DeskCalculator.Main in
/-- Runs the calculator with the options of the command line. -/
def main (args : List String) : IO UInt32 := do
  match parse {} args with
  | .error stop =>
    put stop.outcome.output
    match stop.outcome.failure with
    | none => return 0
    | some failure => fail failure
  | .ok o =>
    let read ← readFiles o
    match startup o read with
    | .error failure => fail failure
    | .ok (session, none) => interactive session
    | .ok (_, some _) =>
      let result := outcome args read []
      put result.output
      match result.failure with
      | none => return 0
      | some failure => fail failure
