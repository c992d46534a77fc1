import DeskCalculator.Journal

/-!
# DeskCalculator.Memory — the memory register

One number, and the log of every use that was made of it.  The log is complete: replaying it from
zero gives the number that the register holds.
-/

namespace DeskCalculator

/-- The register and its log, oldest use first. -/
structure Memory where
  value : Float := 0
  log : List MemoryAccess := []
deriving DecidableEq

/-- A use of the register that is asked for. -/
inductive MemoryRequest
  | store (x : Float)
  | retrieve
  | clear
  | add (x : Float)
  | subtract (x : Float)
deriving DecidableEq

namespace MemoryRequest

/-- What is done to the register. -/
def action : MemoryRequest → MemoryAction
  | store _ => .store
  | retrieve => .retrieve
  | clear => .clear
  | add _ => .add
  | subtract _ => .subtract

/-- The operand, for a register that holds `held`. -/
def operand (held : Float) : MemoryRequest → Float
  | store x | add x | subtract x => x
  | retrieve | clear => held

/-- The number that is answered when the register goes from `held` to `new`. -/
def answer (held new : Float) : MemoryRequest → Float
  | clear => held
  | store _ | retrieve | add _ | subtract _ => new

end MemoryRequest

namespace Memory

/-- The register after a use of it at some time, and the number that is answered. -/
def access (m : Memory) (request : MemoryRequest) (time : Instant) : Memory × Float :=
  let operand := request.operand m.value
  let new := request.action.after m.value operand
  let entry : MemoryAccess :=
    { action := request.action
      value := operand
      old := if request.action = .retrieve then none else some m.value
      new := new
      time := time }
  ({ value := new, log := m.log ++ [entry] }, request.answer m.value new)

/-- What a register holds after the uses in a log. -/
def replay (log : List MemoryAccess) : Float :=
  log.foldl (fun held a => a.action.after held a.value) 0

end Memory

end DeskCalculator
