import DeskCalculator.Proofs.Chaining
import DeskCalculator.Proofs.Domains

/-!
# DeskCalculator.Proofs.ChainRuns — a run of chain operations is a left fold

Each chain operation takes the last result and leaves its own result for the next one, so that a run
of them folds the numbers into the last result, from the left.  A division by a zero is refused and
changes nothing: the fold passes over it, and the history has no entry for it.

* `chain_of_skips`, `chain_of_not_skips`: what one operation does.
* `run_chain`: what a run of them does, by induction along the run.
-/

namespace DeskCalculator

open Binary64 (zero)

namespace Chain

/-- The operations on binary64 numbers. -/
def combine : Chain → Float → Float → Float
  | add, a, b => a + b
  | subtract, a, b => a - b
  | multiply, a, b => a * b
  | divide, a, b => a / b

/-- Whether an operation is passed over: it divides by a zero, of either sign. -/
def Skips (op : Chain) (b : Float) : Prop :=
  op = .divide ∧ (b = zero .positive ∨ b = zero .negative)

instance (op : Chain) (b : Float) : Decidable (op.Skips b) := inferInstanceAs (Decidable (_ ∧ _))

/-- The last result after an operation with a number. -/
def accumulate (last : Float) (step : Chain × Float) : Float :=
  if step.1.Skips step.2 then last else step.1.combine last step.2

/-- The call of an operation with a number. -/
def toCall (step : Chain × Float) : Call := .chain step.1 step.2

/-- `r` is the entry of an operation with a number, whatever it went on from. -/
structure Enters (step : Chain × Float) (r : Calculation) : Prop where
  operation : r.operation = step.1.operation.tag
  second : r.second = some step.2
  result : r.result = step.1.combine r.first step.2

theorem value_of_skips {op : Chain} {b : Float} (h : op.Skips b) (a : Float) :
    op.operation.value a b = .error .divisionByZero := by
  obtain ⟨rfl, h⟩ := h
  have hzero : b == 0 := Binary64.beq_zero_iff.mpr (h.elim (⟨_, ·⟩) (⟨_, ·⟩))
  show (if b == 0 then Except.error Fault.divisionByZero else .ok (a / b)) = _
  rw [if_pos hzero]

theorem value_of_not_skips {op : Chain} {b : Float} (h : ¬ op.Skips b) (a : Float) :
    op.operation.value a b = .ok (op.combine a b) := by
  cases op with
  | add | subtract | multiply => rfl
  | divide =>
    have hnonzero : ¬ (b == 0) = true := by
      intro hb
      obtain ⟨s, hs⟩ := Binary64.beq_zero_iff.mp hb
      cases s with
      | positive => exact h ⟨rfl, .inl hs⟩
      | negative => exact h ⟨rfl, .inr hs⟩
    show (if b == 0 then Except.error Fault.divisionByZero else .ok (a / b)) = _
    rw [if_neg hnonzero]
    rfl

end Chain

namespace Calculator

variable {c : Calculator} {op : Chain} {b : Float}

/-! ## One operation -/

theorem chain_of_skips (h : op.Skips b) : c.chain op b = (c, .error .divisionByZero) := by
  refine compute_of_error ?_
  rw [Chain.result_eq, Chain.value_of_skips h]

theorem chain_of_not_skips (h : ¬ op.Skips b) :
    c.chain op b =
      (c.record (.binary op.operation c.lastResult b) (op.combine c.lastResult b),
        .ok (op.combine c.lastResult b)) := by
  refine compute_of_ok ?_
  rw [Chain.result_eq, Chain.value_of_not_skips h]

theorem apply_of_skips (h : op.Skips b) : c.apply (Chain.toCall (op, b)) = c :=
  congrArg Prod.fst (chain_of_skips h)

theorem apply_of_not_skips (h : ¬ op.Skips b) : c.apply (Chain.toCall (op, b)) =
    c.record (.binary op.operation c.lastResult b) (op.combine c.lastResult b) :=
  congrArg Prod.fst (chain_of_not_skips h)

/-- The entry that an operation makes goes on from the last result. -/
theorem enters_entry (c : Calculator) (op : Chain) (b : Float) :
    Chain.Enters (op, b)
      (c.entry (.binary op.operation c.lastResult b) (op.combine c.lastResult b)) :=
  ⟨rfl, rfl, rfl⟩

/-! ## Runs -/

theorem lastResult_run_chain (c : Calculator) (steps : List (Chain × Float)) :
    (c.run (steps.map Chain.toCall)).lastResult = steps.foldl Chain.accumulate c.lastResult := by
  induction steps generalizing c with
  | nil => rfl
  | cons step steps ih =>
    obtain ⟨op, b⟩ := step
    rw [List.map_cons, run_cons, ih, List.foldl_cons]
    congr 1
    by_cases h : op.Skips b
    · rw [apply_of_skips h, Chain.accumulate, if_pos h]
    · rw [apply_of_not_skips h, Chain.accumulate, if_neg h]
      rfl

/-- The induction is along the run; the entries behind the first go on from its result, which is the
last result of the calculator that the rest of the run starts from. -/
theorem history_run_chain (c : Calculator) (steps : List (Chain × Float)) :
    ∃ made, (c.run (steps.map Chain.toCall)).history = c.history ++ made ∧
      List.Forall₂ Chain.Enters (steps.filter fun step => ¬ step.1.Skips step.2) made ∧
      (∀ r ∈ made.head?, r.first = c.lastResult) ∧
      made.IsChain fun r r' => r'.first = r.result := by
  induction steps generalizing c with
  | nil => exact ⟨[], by simp, .nil, nofun, .nil⟩
  | cons step steps ih =>
    obtain ⟨op, b⟩ := step
    by_cases h : op.Skips b
    · rw [List.map_cons, run_cons, apply_of_skips h, List.filter_cons_of_neg (by simpa using h)]
      exact ih c
    · rw [List.map_cons, run_cons, apply_of_not_skips h,
        List.filter_cons_of_pos (by simpa using h)]
      obtain ⟨made, hhistory, henters, hfirst, hlinked⟩ := ih (c.record _ _)
      refine ⟨c.entry _ _ :: made, ?_, .cons (c.enters_entry op b) henters, ?_, ?_⟩
      · rw [hhistory]
        simp [record]
      · simp [entry, Computation.first]
      · exact List.isChain_cons.mpr ⟨hfirst, hlinked⟩

theorem rest_run_chain (c : Calculator) (steps : List (Chain × Float)) :
    (c.run (steps.map Chain.toCall)).memory = c.memory ∧
      (c.run (steps.map Chain.toCall)).settings = c.settings := by
  induction steps generalizing c with
  | nil => exact ⟨rfl, rfl⟩
  | cons step steps ih =>
    obtain ⟨op, b⟩ := step
    rw [List.map_cons, run_cons, (ih _).1, (ih _).2]
    by_cases h : op.Skips b
    · rw [apply_of_skips h]
      exact ⟨rfl, rfl⟩
    · rw [apply_of_not_skips h]
      exact ⟨rfl, rfl⟩

/-- **A run of chain operations is a left fold.**  The last result comes out as the numbers folded
into the one before the run, where a division by a zero is passed over.  The history gets one entry
for each operation that is not passed over, in order and behind all others; the first of them goes
on from the last result before the run, and each other one from the result of the one before it.
Each operation of the run answers what the fold has come to with it, or it is passed over and
refused.  The memory, with its log, and the settings are left alone. -/
theorem run_chain (c : Calculator) (steps : List (Chain × Float)) :
    let after := c.run (steps.map Chain.toCall)
    after.lastResult = steps.foldl Chain.accumulate c.lastResult ∧
    (∃ made, after.history = c.history ++ made ∧
      List.Forall₂ Chain.Enters (steps.filter fun step => ¬ step.1.Skips step.2) made ∧
      (∀ r ∈ made.head?, r.first = c.lastResult) ∧
      made.IsChain fun r r' => r'.first = r.result) ∧
    (∀ before op b rest, steps = before ++ (op, b) :: rest →
      ((c.run (before.map Chain.toCall)).chain op b).2 =
        if op.Skips b then .error .divisionByZero
        else .ok ((before ++ [(op, b)]).foldl Chain.accumulate c.lastResult)) ∧
    after.memory = c.memory ∧ after.settings = c.settings := by
  intro after
  refine ⟨c.lastResult_run_chain steps, c.history_run_chain steps, ?_, c.rest_run_chain steps⟩
  rintro before op b rest -
  by_cases h : op.Skips b
  · rw [if_pos h, chain_of_skips h]
  · have hlast := c.lastResult_run_chain before
    rw [if_neg h, chain_of_not_skips h, List.foldl_append, ← hlast]
    simp [Chain.accumulate, h]

/-- A division by a zero in the middle of a run. -/
example :
    let after := run { lastResult := 10, clock := .still ⟨0, 0⟩ }
      ([(.multiply, 3), (.divide, -0), (.subtract, 5)].map Chain.toCall)
    after.lastResult = 25 ∧ after.history.map (·.first) = [10, 30] := by
  decide +kernel

end Calculator

end DeskCalculator
