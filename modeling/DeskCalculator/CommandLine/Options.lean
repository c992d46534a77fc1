import DeskCalculator.Strictness

/-!
# DeskCalculator.CommandLine.Options — the options of the command line

Four options take a value, which stands behind an equals sign, directly behind a short name, or in
the next argument; two are flags.  No option may be given twice, and there are no other arguments.
An argument that begins with a hyphen is no value, except that a precision may be negative.  The
arguments are taken from the left, and the first that asks for help or is wrong decides.
-/

namespace DeskCalculator.CommandLine

/-- The options as they were given. -/
structure Options where
  config : Option String := none
  mode : Option String := none
  precision : Option Int := none
  script : Option String := none
  strict : Bool := false
  echo : Bool := false
deriving DecidableEq

/-- Why the program does not get to its work. -/
inductive Stop
  | help
  | version
  | usage
deriving DecidableEq

/-- The options that take a value. -/
inductive Valued
  | config
  | mode
  | precision
  | script
deriving DecidableEq

/-- The options that take none. -/
inductive Flag
  | strict
  | echo
deriving DecidableEq

/-- What an option name stands for. -/
inductive Name
  | valued (v : Valued)
  | flag (f : Flag)
  | stop (s : Stop)
deriving DecidableEq

/-- The long names. -/
def longNames : List (List Char × Name) :=
  [("config".toList, .valued .config), ("mode".toList, .valued .mode),
    ("precision".toList, .valued .precision), ("script".toList, .valued .script),
    ("strict".toList, .flag .strict), ("echo".toList, .flag .echo),
    ("help".toList, .stop .help), ("version".toList, .stop .version)]

/-- The short names. -/
def shortNames : List (Char × Name) :=
  [('c', .valued .config), ('m', .valued .mode), ('p', .valued .precision), ('s', .valued .script),
    ('h', .stop .help), ('V', .stop .version)]

namespace Options

/-- Sets a flag that was not set before. -/
def setFlag (o : Options) : Flag → Except Stop Options
  | .strict => if o.strict then .error .usage else .ok { o with strict := true }
  | .echo => if o.echo then .error .usage else .ok { o with echo := true }

/-- An integer as it is given on the command line: no white space around it. -/
def integer? (text : String) : Option Int :=
  match scanInteger text.toList with
  | some (n, []) => some n
  | _ => none

/-- Sets a path, which must not be empty. -/
def path (text : String) (set : String → Options) : Except Stop Options :=
  if text.isEmpty then .error .usage else .ok (set text)

/-- Gives a value to an option that has none. -/
def setValue (o : Options) (v : Valued) (text : String) : Except Stop Options :=
  match v with
  | .config =>
    if o.config.isSome then .error .usage else path text fun p => { o with config := some p }
  | .script =>
    if o.script.isSome then .error .usage else path text fun p => { o with script := some p }
  | .mode => if o.mode.isSome then .error .usage else .ok { o with mode := some text }
  | .precision =>
    match o.precision, integer? text with
    | none, some n => .ok { o with precision := some n }
    | _, _ => .error .usage

end Options

/-- The options so far, and the option whose value comes next. -/
structure State where
  options : Options := {}
  pending : Option Valued := none

/-- Whether an argument is a negative integer. -/
def isNegativeInteger (cs : List Char) : Bool :=
  match cs with
  | '-' :: digits => !digits.isEmpty && digits.all Char.isDigit
  | _ => false

/-- Takes the short options of an argument behind its hyphen. -/
def takeShort (o : Options) : List Char → Except Stop State
  | [] => .ok { options := o }
  | c :: cs =>
    match shortNames.lookup c with
    | none => .error .usage
    | some (.stop s) => .error s
    | some (.flag f) => do takeShort (← o.setFlag f) cs
    | some (.valued v) =>
      match cs with
      | [] => .ok { options := o, pending := some v }
      | '=' :: text => do return { options := ← o.setValue v (.ofList text) }
      | text => do return { options := ← o.setValue v (.ofList text) }

/-- Takes a long option; `text` is what stands behind its equals sign, if there is one. -/
def takeLong (o : Options) (name : List Char) (text : Option (List Char)) : Except Stop State :=
  match longNames.lookup name, text with
  | some (.stop s), none => .error s
  | some (.flag f), none => do return { options := ← o.setFlag f }
  | some (.valued v), none => .ok { options := o, pending := some v }
  | some (.valued v), some text => do return { options := ← o.setValue v (.ofList text) }
  | _, _ => .error .usage

/-- Takes one argument. -/
def State.take (s : State) (arg : String) : Except Stop State :=
  let cs := arg.toList
  match s.pending with
  | some v =>
    if cs.head? ≠ some '-' ∨ cs = ['-'] ∨ (v = .precision ∧ isNegativeInteger cs) then do
      return { options := ← s.options.setValue v arg }
    else .error .usage
  | none =>
    match cs with
    | '-' :: '-' :: c :: rest =>
      let text := c :: rest
      let name := text.takeWhile (· != '=')
      takeLong s.options name (if name.length = text.length then none
        else some (text.drop (name.length + 1)))
    | '-' :: c :: rest =>
      if c = '-' then .error .usage else takeShort s.options (c :: rest)
    | _ => .error .usage

/-- The options of some arguments.  Behind `--` no more may follow. -/
def parse : (s : State) → List String → Except Stop Options
  | s, [] => if s.pending.isSome then .error .usage else .ok s.options
  | s, arg :: args =>
    if arg = "--" then
      if s.pending.isSome ∨ !args.isEmpty then .error .usage else .ok s.options
    else do parse (← s.take arg) args

end DeskCalculator.CommandLine
