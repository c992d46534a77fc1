import DeskCalculator.Instant.Basic

/-!
# DeskCalculator.Journal — the entries of the two histories

A calculation is one operation with its operands and its result; a memory access is one use of the
memory register with the value before and after it.  Both carry the instant at which they were
made.  An entry is never changed once it has been made.
-/

namespace DeskCalculator

/-- One operation that was carried out; of an operation on one number `second` is empty. -/
structure Calculation where
  operation : String
  first : Float
  second : Option Float
  result : Float
  time : Instant
deriving DecidableEq

/-- Whether the operation had two operands. -/
def Calculation.isBinary (c : Calculation) : Bool := c.second.isSome

/-- The ways of using the memory register. -/
inductive MemoryAction
  | store
  | retrieve
  | clear
  | add
  | subtract
deriving DecidableEq

namespace MemoryAction

/-- The name of a way of using the register. -/
def name : MemoryAction → String
  | store => "STORE"
  | retrieve => "RECALL"
  | clear => "CLEAR"
  | add => "ADD"
  | subtract => "SUBTRACT"

/-- All of them. -/
def all : List MemoryAction := [store, retrieve, clear, add, subtract]

/-- The one of a name. -/
def ofName? (text : String) : Option MemoryAction := all.find? (·.name == text)

/-- What a register that held `held` holds after it was used with `operand`. -/
def after : MemoryAction → (held operand : Float) → Float
  | store, _, x => x
  | retrieve, v, _ => v
  | clear, _, _ => 0
  | add, v, x => v + x
  | subtract, v, x => v - x

end MemoryAction

/-- One use of the memory register.  `value` is the operand; of a retrieval and a clearing it is
what the register held.  A retrieval has no `old` value, since it replaces nothing. -/
structure MemoryAccess where
  action : MemoryAction
  value : Float
  old : Option Float
  new : Float
  time : Instant
deriving DecidableEq

end DeskCalculator
