import DeskCalculator.CommandLine.Options
import DeskCalculator.ConfigFile
import DeskCalculator.Inspection
import DeskCalculator.Session.Dialogue

/-!
# DeskCalculator.CommandLine.Program — what the program does with its arguments

The config file is read first, then the angle unit and the precision of the options are checked,
and then the script is opened; the first of these that fails ends the program.  An option overrides
what the file says.  The session then runs over the script, or over the standard input.
-/

namespace DeskCalculator.CommandLine

/-- How the program fails. -/
inductive Failure
  /-- The arguments are wrong. -/
  | usage
  /-- A file has no text; with the words for it. -/
  | file (message : String)
  /-- The config file is not the JSON of a config. -/
  | json
  /-- A setting is refused. -/
  | fault (f : Fault)
  /-- A line of the input is not UTF-8. -/
  | invalidText
deriving DecidableEq

/-- The exit code of a failure. -/
def Failure.code : Failure → UInt32
  | usage => 2
  | file _ | json | fault _ | invalidText => 1

/-- What a reader of JSON has against a text, and where in the text. -/
structure JsonFault where
  words : String := "not a config"
  line : Nat := 0
  column : Nat := 0

/-- How what is against a text is made up. -/
def JsonFault.inspect (f : JsonFault) : String :=
  "Error(" ++ Text.quoted f.words ++ ", line: " ++ toString f.line ++ ", column: " ++
    toString f.column ++ ")"

/-- The words for a failure; `said` is what the reader of JSON has against the config file, where it
says more than that there is something. -/
def Failure.message (failure : Failure) (said : JsonFault := {}) : String :=
  match failure with
  | usage => "Usage: calcshell [OPTIONS]"
  | file message => "Error: " ++ Text.quoted message
  | json => "Error: " ++ said.inspect
  | fault f => "Error: " ++ f.inspect
  | invalidText =>
    "Error: " ++ inspectRecord "Custom"
      [("kind", "InvalidData"), ("error", Text.quoted FileFault.notText.message)]

/-- What the program leaves behind. -/
structure Outcome where
  output : String := ""
  failure : Option Failure := none
deriving DecidableEq

/-- The text of the version. -/
def versionText : String := "calcshell 0.1.0\n"

/-- The lines of the help on the options. -/
def helpLines : List String :=
  ["Stateful command-line calculator with memory and scientific functions",
    "",
    "Usage: calcshell [OPTIONS]",
    "",
    "Options:",
    "  -c, --config <CONFIG>        Path to a JSON config file",
    "  -m, --mode <MODE>            Angle mode: degrees or radians",
    "  -p, --precision <PRECISION>  Decimal digits kept for trig and logarithm results (0-15)",
    "      --strict                 Reject non-numeric arguments instead of treating them as NaN",
    "  -s, --script <SCRIPT>        Read commands from a file instead of stdin",
    "      --echo                   Echo each input line before its output",
    "  -h, --help                   Print help",
    "  -V, --version                Print version"]

/-- The text of the help on the options. -/
def helpText : String := String.join (helpLines.map (· ++ "\n"))

/-- The outcome when the program does not get to its work. -/
def Stop.outcome : Stop → Outcome
  | help => { output := helpText }
  | version => { output := versionText }
  | usage => { failure := some .usage }

/-- Turns the fault of a setting into a failure. -/
def checked (r : Except Fault α) : Except Failure α := r.mapError .fault

/-- The config of a file, or the default. -/
def baseConfig (read : String → Option (List UInt8)) : Option String → Except Failure Config
  | none => .ok {}
  | some path =>
    match Config.ofFile path (read path) with
    | .ok c => .ok c
    | .error (.file path f) => .error (.file (ConfigError.fileMessage path f))
    | .error .json => .error .json
    | .error (.fault f) => .error (.fault f)

/-- The config under some options, `read` giving the bytes of the file at a path. -/
def Options.toConfig (o : Options) (read : String → Option (List UInt8)) :
    Except Failure Config := do
  let base ← baseConfig read o.config
  let angleUnit ← checked (o.mode.elim (.ok base.angleUnit) AngleUnit.ofName)
  let precision ← checked (o.precision.elim (.ok base.precision) Settings.checkPrecision)
  return { base with
    angleUnit, precision
    strictNumbers := base.strictNumbers || o.strict
    echo := base.echo || o.echo }

/-- Nothing that the program writes shows a time, so its clock stands still. -/
def clock : Clock := .still ⟨0, 0⟩

/-- The bytes of the script, if there is to be one. -/
def Options.scriptBytes (o : Options) (read : String → Option (List UInt8)) :
    Except Failure (Option (List UInt8)) :=
  match o.script with
  | none => .ok none
  | some path =>
    match read path with
    | some bytes => .ok (some bytes)
    | none =>
      .error (.file ("Failed to open script " ++ path ++ ": " ++ FileFault.missing.message))

/-- The session that the program starts, and the script it runs over, if there is one. -/
def startup (o : Options) (read : String → Option (List UInt8)) :
    Except Failure (Session × Option (List UInt8)) := do
  let session ← checked (Session.new (← o.toConfig read) clock)
  return (session, ← o.scriptBytes read)

/-- How the program fails at the end of a dialogue. -/
def failureOf : Ending → Option Failure
  | .complete => none
  | .invalidText => some .invalidText

/-- The outcome of the program for its arguments, the files and the standard input. -/
def outcome (args : List String) (read : String → Option (List UInt8)) (input : List UInt8) :
    Outcome :=
  match parse {} args with
  | .error stop => stop.outcome
  | .ok o =>
    match startup o read with
    | .error failure => { failure := some failure }
    | .ok (session, script) =>
      let d := session.run (script.getD input)
      { output := d.output, failure := failureOf d.ending }

end DeskCalculator.CommandLine
