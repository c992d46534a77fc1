import DeskCalculator.Proofs.Calls

/-!
# DeskCalculator.Proofs.History — the history only grows, and the last result is its newest

One call keeps the history, or makes one entry at its end, or is the call that empties it
(`HistoryStep`).  The last result follows along: it is the result of the newest entry in every
reachable state, however calls, refusals and emptyings are mixed.
-/

namespace DeskCalculator

/-- The result of the newest entry of a history; `+0` when there is none. -/
def newestResult (history : List Calculation) : Float :=
  (history.getLast?.map (·.result)).getD 0

@[simp] theorem newestResult_nil : newestResult [] = 0 := rfl

@[simp] theorem newestResult_append (history : List Calculation) (entry : Calculation) :
    newestResult (history ++ [entry]) = entry.result := by
  simp [newestResult]

namespace Calculator

variable {c c' : Calculator}

/-- What a step from `c` to `c'` by the call `k` does to the history and the last result. -/
inductive HistoryStep (c : Calculator) (k : Call) (c' : Calculator) : Prop
  | kept (history : c'.history = c.history) (last : c'.lastResult = c.lastResult)
  | entered {x : Computation} {result : Float} (asked : k.computation? c.lastResult = some x)
      (value : x.result c.settings = .ok result)
      (history : c'.history = c.history ++ [c.entry x result]) (last : c'.lastResult = result)
  | emptied (call : k = .clearHistory) (history : c'.history = []) (last : c'.lastResult = 0)
      (memory : c'.memory = c.memory) (settings : c'.settings = c.settings)

/-! ## One call -/

theorem Effect.historyStep {k : Call} (h : c.Effect k c') : c.HistoryStep k c' := by
  cases h with
  | computed asked value => exact .entered asked value rfl rfl
  | accessed request => exact .kept rfl rfl
  | configured asked => exact .kept rfl rfl
  | cleared => exact .emptied rfl rfl rfl rfl rfl
  | refused reason => exact .kept rfl rfl

/-- Only a call that asks for a computation, or the one that empties it, touches the history. -/
theorem Effect.history_eq {k : Call} (h : c.Effect k c')
    (asked : k.computation? c.lastResult = none) (hk : k ≠ .clearHistory) :
    c'.history = c.history := by
  cases h with
  | computed asked' => rw [asked] at asked'; cases asked'
  | accessed request => rfl
  | configured asked' => rfl
  | cleared => exact absurd rfl hk
  | refused reason => rfl

theorem apply_historyStep (c : Calculator) (k : Call) : c.HistoryStep k (c.apply k) :=
  (c.apply_effect k).historyStep

theorem prefix_apply {k : Call} (hk : k ≠ .clearHistory) :
    c.history <+: (c.apply k).history := by
  cases c.apply_historyStep k with
  | kept history => exact ⟨[], by rw [List.append_nil, history]⟩
  | entered asked value history => rw [history]; exact List.prefix_append _ _
  | emptied call => exact absurd call hk

/-! ## Runs -/

/-- Entries are neither altered nor dropped nor moved by a run that does not empty the history. -/
theorem prefix_run {calls : List Call} (h : .clearHistory ∉ calls) :
    c.history <+: (c.run calls).history := by
  induction calls generalizing c with
  | nil => exact List.prefix_rfl
  | cons k calls ih =>
    rw [List.mem_cons, not_or] at h
    have hk : c.history <+: (c.apply k).history := prefix_apply (Ne.symm h.1)
    exact hk.trans (ih h.2)

/-- The invariant of the last result is kept by each call, since each way in which the history
changes sets the last result with it. -/
theorem lastResult_apply (h : c.lastResult = newestResult c.history) (k : Call) :
    (c.apply k).lastResult = newestResult (c.apply k).history := by
  cases c.apply_historyStep k with
  | kept history last => rw [history, last, h]
  | entered asked value history last => rw [history, last, newestResult_append]; rfl
  | emptied call history last => rw [history, last, newestResult_nil]

theorem withSettings_history {s : Settings} (h : c.withSettings s = .ok c') :
    c'.history = c.history := by
  rw [(withSettings_eq_ok.mp h).2]

theorem lastResult_of_reachable (h : c.Reachable) : c.lastResult = newestResult c.history := by
  induction h with
  | fresh clock => rfl
  | withSettings _ hs ih =>
    rw [(withSettings_eq_ok.mp hs).2]
    exact ih
  | apply _ k ih => exact lastResult_apply ih k

/-- Every entry of the history was made for a computation that had its result. -/
theorem exists_entry_of_mem (h : c.Reachable) {r : Calculation} (hr : r ∈ c.history) :
    ∃ (before : Calculator) (x : Computation) (result : Float),
      x.result before.settings = .ok result ∧ r = before.entry x result := by
  induction h with
  | fresh clock => cases hr
  | withSettings _ hs ih =>
    rw [withSettings_history hs] at hr
    exact ih hr
  | @apply c _ k ih =>
    cases c.apply_historyStep k with
    | kept history =>
      rw [history] at hr
      exact ih hr
    | emptied _ history =>
      rw [history] at hr
      cases hr
    | @entered x result _ value history =>
      rw [history] at hr
      rcases List.mem_append.mp hr with hr | hr
      · exact ih hr
      · exact ⟨c, x, result, value, List.mem_singleton.mp hr⟩

/-- **The history of a reachable calculator.**  The last result is that of the newest entry, `+0` if
there is none.  A call keeps the history, or makes one entry behind all others, or is the one that
empties it and leaves the memory and the settings alone.  A computation that has a result is always
entered, with that result; a call that asks for no computation, and a change to other settings,
keep the history; so a run that does not empty it only adds to its end. -/
theorem history_of_reachable (h : c.Reachable) :
    c.lastResult = newestResult c.history ∧
    (∀ k : Call, c.HistoryStep k (c.apply k)) ∧
    (∀ (k : Call) (x : Computation) (result : Float), k.computation? c.lastResult = some x →
      x.result c.settings = .ok result →
      (c.apply k).history = c.history ++ [c.entry x result] ∧ (c.apply k).lastResult = result) ∧
    (∀ k : Call, k.computation? c.lastResult = none → k ≠ .clearHistory →
      (c.apply k).history = c.history) ∧
    (∀ (s : Settings) (c' : Calculator), c.withSettings s = .ok c' → c'.history = c.history) ∧
    ∀ calls : List Call, .clearHistory ∉ calls → c.history <+: (c.run calls).history := by
  refine ⟨lastResult_of_reachable h, c.apply_historyStep, ?_, ?_, ?_, ?_⟩
  · intro k x result asked value
    rw [apply_of_ok asked value]
    exact ⟨rfl, rfl⟩
  · intro k asked hk
    exact (c.apply_effect k).history_eq asked hk
  · intro s c' hs
    exact withSettings_history hs
  · intro calls hcalls
    exact prefix_run hcalls

/-- A run with a refusal, an emptying of the history, a change of the precision and a use of the
memory between its computations. -/
def mixedRun : List Call :=
  [.compute (.binary .add 1 2), .clearHistory, .setPrecision 1, .compute (.unary .sine 45),
    .compute (.binary .divide 1 0), .access (.store 9), .chain .multiply 3]

theorem history_of_mixedRun :
    (run { clock := .still ⟨0, 0⟩ } mixedRun).Reachable ∧
      (run { clock := .still ⟨0, 0⟩ } mixedRun).history.map (·.result) = [0.7, 0.7 * 3] ∧
      (run { clock := .still ⟨0, 0⟩ } mixedRun).lastResult =
        newestResult (run { clock := .still ⟨0, 0⟩ } mixedRun).history := by
  have h : (run { clock := .still ⟨0, 0⟩ } mixedRun).Reachable := Reachable.run (.fresh _) _
  exact ⟨h, by decide +kernel, (history_of_reachable h).1⟩

end Calculator

end DeskCalculator
