import DeskCalculator.Archive
import DeskCalculator.Text.Lines

/-!
# DeskCalculator.ConfigFile — configs from texts and files

A config is taken from a text only if its precision is valid, so a session can start from every
config that is read.
-/

namespace DeskCalculator

/-- Why a file has no text. -/
inductive FileFault
  /-- There is no such file. -/
  | missing
  /-- Its bytes are not UTF-8. -/
  | notText
deriving DecidableEq

/-- The wording of a file fault. -/
def FileFault.message : FileFault → String
  | missing => "No such file or directory (os error 2)"
  | notText => "stream did not contain valid UTF-8"

/-- Why no config is had. -/
inductive ConfigError
  /-- The file has no text. -/
  | file (path : String) (f : FileFault)
  /-- The text is not the JSON of a config. -/
  | json
  /-- A part of the config is out of range. -/
  | fault (f : Fault)
deriving DecidableEq

/-- The wording of a file fault for a config. -/
def ConfigError.fileMessage (path : String) (f : FileFault) : String :=
  "Failed to read config file " ++ path ++ ": " ++ f.message

namespace Config

/-- The config of a text in JSON. -/
def ofText (text : String) : Except ConfigError Config :=
  match Json.Value.parse? text >>= ofJson? with
  | none => .error .json
  | some c =>
    match c.settings.check with
    | .ok () => .ok c
    | .error f => .error (.fault f)

/-- The config of the file at a path, which has the given bytes if it is there. -/
def ofFile (path : String) (content : Option (List UInt8)) : Except ConfigError Config :=
  match content with
  | none => .error (.file path .missing)
  | some bytes =>
    match Text.decode? bytes with
    | none => .error (.file path .notText)
    | some text => ofText text

end Config

end DeskCalculator
