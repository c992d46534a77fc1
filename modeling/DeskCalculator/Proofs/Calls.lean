import DeskCalculator.Calculator

/-!
# DeskCalculator.Proofs.Calls — the calls of a calculator, and what each of them can do

A `Call` is one use of a calculator that may change it.  `apply` carries a call out, refused or not,
and `run` carries out several in turn.

* `apply_effect`: a call does one of five things (`Effect`), each under its own guard.  What is
  shown of all calls elsewhere is shown by cases on `Effect`; nothing opens `apply` again.
* `Reachable`: the calculators that come from a fresh one by calls and by changes to valid settings;
  `Reachable.run` says so of a run.
-/

namespace DeskCalculator

/-- A use of a calculator that may change it. -/
inductive Call
  | compute (x : Computation)
  | chain (op : Chain) (b : Float)
  | access (request : MemoryRequest)
  | setAngleUnit (text : String)
  | setPrecision (n : Int)
  | clearHistory

namespace Call

/-- The computation that a call asks for, when the last result is `last`. -/
def computation? (last : Float) : Call → Option Computation
  | compute x => some x
  | chain op b => some (.binary op.operation last b)
  | access _ | setAngleUnit _ | setPrecision _ | clearHistory => none

/-- The use of the memory register that a call asks for. -/
def request? : Call → Option MemoryRequest
  | access request => some request
  | compute _ | chain _ _ | setAngleUnit _ | setPrecision _ | clearHistory => none

/-- The settings that a call asks for, when those in force are `s`. -/
def settings? (s : Settings) : Call → Option (Except Fault Settings)
  | setAngleUnit text =>
    some ((AngleUnit.ofName text).map fun angleUnit => { s with angleUnit })
  | setPrecision n =>
    some ((Settings.checkPrecision n).map fun precision => { s with precision })
  | compute _ | chain _ _ | access _ | clearHistory => none

end Call

namespace Settings

theorem check_of_valid {s : Settings} (h : s.Valid) : s.check = .ok () := by
  have hn : (0 : Int) ≤ s.precision.toNat ∧ (s.precision.toNat : Int) ≤ maxPrecision :=
    ⟨Int.natCast_nonneg _, Int.ofNat_le.mpr h⟩
  unfold check checkPrecision
  rw [if_pos hn]
  rfl

theorem check_of_not_valid {s : Settings} (h : ¬ s.Valid) :
    s.check = .error (.badPrecision (toString (s.precision.toNat : Int))) := by
  have hn : ¬ ((0 : Int) ≤ s.precision.toNat ∧ (s.precision.toNat : Int) ≤ maxPrecision) :=
    fun hn => h (Int.ofNat_le.mp hn.2)
  unfold check checkPrecision
  rw [if_neg hn]
  rfl

end Settings

namespace Calculator

variable {c c' : Calculator} {k : Call} {x : Computation} {result : Float} {fault : Fault}

/-! ## Single functions -/

theorem compute_of_ok (h : x.result c.settings = .ok result) :
    c.compute x = (c.record x result, .ok result) := by
  simp only [compute, h]

theorem compute_of_error (h : x.result c.settings = .error fault) :
    c.compute x = (c, .error fault) := by
  simp only [compute, h]

theorem compute_snd (c : Calculator) (x : Computation) : (c.compute x).2 = x.result c.settings := by
  cases h : x.result c.settings with
  | ok result => rw [compute_of_ok h]
  | error fault => rw [compute_of_error h]

theorem setAngleUnit_snd (c : Calculator) (text : String) :
    (c.setAngleUnit text).2 = AngleUnit.ofName text := by
  unfold setAngleUnit
  cases AngleUnit.ofName text <;> rfl

theorem setPrecision_snd (c : Calculator) (n : Int) :
    (c.setPrecision n).2 = Settings.checkPrecision n := by
  unfold setPrecision
  cases Settings.checkPrecision n <;> rfl

/-- Other settings are taken exactly when they are valid, and nothing else is changed then. -/
theorem withSettings_eq_ok {s : Settings} :
    c.withSettings s = .ok c' ↔ s.Valid ∧ c' = { c with settings := s } := by
  unfold withSettings
  by_cases hs : s.Valid
  · rw [Settings.check_of_valid hs]
    constructor
    · intro h
      cases h
      exact ⟨hs, rfl⟩
    · rintro ⟨-, rfl⟩
      rfl
  · rw [Settings.check_of_not_valid hs]
    constructor
    · intro h
      cases h
    · intro h
      exact absurd h.1 hs

/-! ## Calls -/

/-- The calculator after a call, which is as it was when the call is refused. -/
def apply (c : Calculator) : Call → Calculator
  | .compute x => (c.compute x).1
  | .chain op b => (c.chain op b).1
  | .access request => (c.access request).1
  | .setAngleUnit text => (c.setAngleUnit text).1
  | .setPrecision n => (c.setPrecision n).1
  | .clearHistory => c.clearHistory

/-- The calculator after some calls. -/
def run (c : Calculator) (calls : List Call) : Calculator := calls.foldl apply c

@[simp] theorem run_nil (c : Calculator) : c.run [] = c := rfl

@[simp] theorem run_cons (c : Calculator) (k : Call) (calls : List Call) :
    c.run (k :: calls) = (c.apply k).run calls := rfl

/-- What a call does: it enters a computation in the history, uses the memory register, changes the
settings, empties the history, or is refused and does nothing. -/
inductive Effect (c : Calculator) : Call → Calculator → Prop
  | computed {k : Call} {x : Computation} {result : Float}
      (asked : k.computation? c.lastResult = some x) (value : x.result c.settings = .ok result) :
      Effect c k (c.record x result)
  | accessed (request : MemoryRequest) : Effect c (.access request) (c.access request).1
  | configured {k : Call} {s : Settings} (asked : k.settings? c.settings = some (.ok s)) :
      Effect c k { c with settings := s }
  | cleared : Effect c .clearHistory c.clearHistory
  | refused {k : Call} {fault : Fault}
      (reason : (∃ x, k.computation? c.lastResult = some x ∧ x.result c.settings = .error fault) ∨
        k.settings? c.settings = some (.error fault)) :
      Effect c k c

/-- A call that asks for a computation carries it out and does nothing else. -/
theorem apply_of_asked (asked : k.computation? c.lastResult = some x) :
    c.apply k = (c.compute x).1 := by
  cases k with
  | compute y => cases asked; rfl
  | chain op b => cases asked; rfl
  | access request => cases asked
  | setAngleUnit text => cases asked
  | setPrecision n => cases asked
  | clearHistory => cases asked

/-- A call that asks for a computation with a result enters just that. -/
theorem apply_of_ok (asked : k.computation? c.lastResult = some x)
    (value : x.result c.settings = .ok result) : c.apply k = c.record x result := by
  rw [apply_of_asked asked, compute_of_ok value]

theorem effect_of_asked (asked : k.computation? c.lastResult = some x) :
    c.Effect k (c.apply k) := by
  rw [apply_of_asked asked]
  cases hx : x.result c.settings with
  | ok result => rw [compute_of_ok hx]; exact .computed asked hx
  | error fault => rw [compute_of_error hx]; exact .refused (.inl ⟨x, asked, hx⟩)

/-- **What a call does is one of the five effects.** -/
theorem apply_effect (c : Calculator) (k : Call) : c.Effect k (c.apply k) := by
  cases k with
  | compute x => exact effect_of_asked rfl
  | chain op b => exact effect_of_asked rfl
  | access request => exact .accessed request
  | setAngleUnit text =>
    cases h : AngleUnit.ofName text with
    | ok unit =>
      simp only [apply, setAngleUnit, h]
      exact .configured (by simp only [Call.settings?, h]; rfl)
    | error fault =>
      simp only [apply, setAngleUnit, h]
      exact .refused (.inr (by simp only [Call.settings?, h]; rfl))
  | setPrecision n =>
    cases h : Settings.checkPrecision n with
    | ok precision =>
      simp only [apply, setPrecision, h]
      exact .configured (by simp only [Call.settings?, h]; rfl)
    | error fault =>
      simp only [apply, setPrecision, h]
      exact .refused (.inr (by simp only [Call.settings?, h]; rfl))
  | clearHistory => exact .cleared

/-! ## Reachable calculators -/

/-- The calculators that a program can come to: a fresh one, one that was given other valid settings,
and one on which a call was made, whatever came of it. -/
inductive Reachable : Calculator → Prop
  | fresh (clock : Clock) : Reachable { clock }
  | withSettings {c c' : Calculator} {s : Settings} (h : Reachable c)
      (hs : c.withSettings s = .ok c') : Reachable c'
  | apply {c : Calculator} (h : Reachable c) (k : Call) : Reachable (c.apply k)

theorem Reachable.run (h : c.Reachable) (calls : List Call) : (c.run calls).Reachable := by
  induction calls generalizing c with
  | nil => exact h
  | cons k calls ih => exact ih (h.apply k)

end Calculator

end DeskCalculator
