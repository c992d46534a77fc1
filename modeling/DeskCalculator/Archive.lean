import DeskCalculator.Config
import DeskCalculator.Instant.Text
import DeskCalculator.Journal
import DeskCalculator.Json.Fields

/-!
# DeskCalculator.Archive — settings, configs and journal entries as JSON

Each of these types has a value in JSON, and reads it back.  The fields of a config may be missing
and then have their defaults; those of all the others are needed, but for the old value of a memory
access.
-/

namespace DeskCalculator

open Json (Value)

/-! ## Names -/

/-- The value of an angle unit. -/
def AngleUnit.toJson (unit : AngleUnit) : Value := .ofText unit.name

/-- The angle unit of a value. -/
def AngleUnit.ofJson? (v : Value) : Option AngleUnit := do
  match AngleUnit.ofName (← v.toName?) with
  | .ok unit => some unit
  | .error _ => none

/-- The name of a strictness. -/
def Strictness.name : Strictness → String
  | .lenient => "lenient"
  | .strict => "strict"

/-- The value of a strictness. -/
def Strictness.toJson (s : Strictness) : Value := .ofText s.name

/-- The strictness of a value. -/
def Strictness.ofJson? (v : Value) : Option Strictness := do
  let name ← v.toName?
  if name = "lenient" then some .lenient
  else if name = "strict" then some .strict
  else none

/-- The value of a way of using the register. -/
def MemoryAction.toJson (a : MemoryAction) : Value := .ofText a.name

/-- The way of using the register of a value. -/
def MemoryAction.ofJson? (v : Value) : Option MemoryAction := v.toName? >>= MemoryAction.ofName?

/-- The value of an instant. -/
def Instant.toJson (t : Instant) : Value := .ofText t.write

/-- The instant of a value. -/
def Instant.ofJson? (v : Value) : Option Instant := v.toText? >>= Instant.read?

/-! ## Records -/

namespace Settings

/-- The value of settings. -/
def toJson (s : Settings) : Value :=
  .record [("angle_mode", s.angleUnit.toJson), ("precision", .ofNat s.precision.toNat)]

/-- The settings of a value. -/
def ofJson? (v : Value) : Option Settings := do
  match ← v.fields? ["angle_mode", "precision"] with
  | [some angleUnit, some precision] =>
    return ⟨← AngleUnit.ofJson? angleUnit, ← precision.toUInt32?⟩
  | _ => none

end Settings

namespace Config

/-- The value of a config. -/
def toJson (c : Config) : Value :=
  .record [("angle_mode", c.angleUnit.toJson), ("precision", .ofNat c.precision.toNat),
    ("strict_numbers", .bool c.strictNumbers), ("prompt", .ofText c.prompt), ("echo", .bool c.echo)]

/-- A field that has a default. -/
def field (default : α) (read : Value → Option α) (v : Option Value) : Option α :=
  v.elim (some default) read

/-- The config of a value; its precision may be out of range. -/
def ofJson? (v : Value) : Option Config := do
  let default : Config := {}
  match ← v.fields? ["angle_mode", "precision", "strict_numbers", "prompt", "echo"] with
  | [angleUnit, precision, strictNumbers, prompt, echo] =>
    return { angleUnit := ← field default.angleUnit AngleUnit.ofJson? angleUnit
             precision := ← field default.precision Value.toUInt32? precision
             strictNumbers := ← field default.strictNumbers Value.toBool? strictNumbers
             prompt := ← field default.prompt Value.toText? prompt
             echo := ← field default.echo Value.toBool? echo }
  | _ => none

end Config

namespace Calculation

/-- The value of a calculation. -/
def toJson (c : Calculation) : Value :=
  .record [("operation", .ofText c.operation),
    ("operands", .array [.ofFloat c.first, c.second.elim .null Value.ofFloat]),
    ("result", .ofFloat c.result), ("timestamp", c.time.toJson)]

/-- The calculation of a value. -/
def ofJson? (v : Value) : Option Calculation := do
  match ← v.fields? ["operation", "operands", "result", "timestamp"] with
  | [some operation, some (.array [a, b]), some result, some time] =>
    return { operation := ← operation.toText?
             first := ← a.toFloat?
             second := ← b.toOption? Value.toFloat?
             result := ← result.toFloat?
             time := ← Instant.ofJson? time }
  | _ => none

end Calculation

namespace MemoryAccess

/-- The value of a memory access. -/
def toJson (a : MemoryAccess) : Value :=
  .record [("operation", a.action.toJson), ("value", .ofFloat a.value),
    ("old_value", a.old.elim .null Value.ofFloat), ("new_value", .ofFloat a.new),
    ("timestamp", a.time.toJson)]

/-- The memory access of a value. -/
def ofJson? (v : Value) : Option MemoryAccess := do
  match ← v.fields? ["operation", "value", "old_value", "new_value", "timestamp"] with
  | [some action, some value, old, some new, some time] =>
    return { action := ← MemoryAction.ofJson? action
             value := ← value.toFloat?
             old := ← (old.getD .null).toOption? Value.toFloat?
             new := ← new.toFloat?
             time := ← Instant.ofJson? time }
  | _ => none

end MemoryAccess

end DeskCalculator
