import DeskCalculator.Proofs.Calls

/-!
# DeskCalculator.Proofs.Ledger — the log of the memory accounts for the register

`Posted` is the table of the five uses of the register: which entry each of them makes, what it
leaves in the register and what it answers.  A log is a `Ledger` from one number to another when
its entries are posted one after the other, each at the number that the one before it left.

* `memory_accounted`: in every reachable state the log is a ledger from `+0` to the register, a use
  makes one entry, and nothing else touches the register or its log.
-/

namespace DeskCalculator

/-- `Posted held request entry new answer`: the use `request` of a register that holds `held` makes
the entry `entry`, leaves `new` in the register and answers `answer`. -/
inductive Posted (held : Float) : MemoryRequest → MemoryAccess → (new answer : Float) → Prop
  | store (x : Float) (time : Instant) :
    Posted held (.store x) ⟨.store, x, some held, x, time⟩ x x
  | retrieve (time : Instant) :
    Posted held .retrieve ⟨.retrieve, held, none, held, time⟩ held held
  | clear (time : Instant) :
    Posted held .clear ⟨.clear, held, some held, 0, time⟩ 0 held
  | add (x : Float) (time : Instant) :
    Posted held (.add x) ⟨.add, x, some held, held + x, time⟩ (held + x) (held + x)
  | subtract (x : Float) (time : Instant) :
    Posted held (.subtract x) ⟨.subtract, x, some held, held - x, time⟩ (held - x) (held - x)

/-- A log whose entries take the register from the first number to the second. -/
inductive Ledger : Float → List MemoryAccess → Float → Prop
  | nil (v : Float) : Ledger v [] v
  | cons {u v w answer : Float} {request : MemoryRequest} {entry : MemoryAccess}
      {log : List MemoryAccess} (posted : Posted u request entry v answer)
      (rest : Ledger v log w) : Ledger u (entry :: log) w

namespace Posted

variable {held new answer : Float} {request : MemoryRequest} {entry : MemoryAccess}

theorem action_eq (h : Posted held request entry new answer) : entry.action = request.action := by
  cases h <;> rfl

/-- The entry alone tells what the use left in the register. -/
theorem after_eq (h : Posted held request entry new answer) :
    entry.action.after held entry.value = new := by
  cases h <;> rfl

end Posted

namespace Ledger

variable {u v w : Float} {log more : List MemoryAccess}

theorem single {request : MemoryRequest} {entry : MemoryAccess} {answer : Float}
    (h : Posted u request entry v answer) : Ledger u [entry] v :=
  .cons h (.nil v)

theorem append (h : Ledger u log v) (h' : Ledger v more w) : Ledger u (log ++ more) w := by
  induction h with
  | nil => exact h'
  | cons posted _ ih => exact .cons posted (ih h')

theorem foldl_eq (h : Ledger u log v) :
    log.foldl (fun held a => a.action.after held a.value) u = v := by
  induction h with
  | nil => rfl
  | cons posted _ ih => rw [List.foldl_cons, posted.after_eq, ih]

theorem replay_eq (h : Ledger 0 log v) : Memory.replay log = v := h.foldl_eq

/-- A ledger comes apart at each of its entries. -/
theorem split {before after : List MemoryAccess} {entry : MemoryAccess}
    (h : Ledger u (before ++ entry :: after) w) :
    ∃ held request new answer,
      Ledger u before held ∧ Posted held request entry new answer ∧ Ledger new after w := by
  induction before generalizing u with
  | nil =>
    cases h with
    | cons posted rest => exact ⟨_, _, _, _, .nil _, posted, rest⟩
  | cons first before ih =>
    cases h with
    | cons posted rest =>
      obtain ⟨held, request, new, answer, hbefore, hentry, hafter⟩ := ih rest
      exact ⟨held, request, new, answer, .cons posted hbefore, hentry, hafter⟩

theorem posted_of_mem {entry : MemoryAccess} (h : Ledger u log w) (hentry : entry ∈ log) :
    ∃ held request new answer, Posted held request entry new answer := by
  obtain ⟨before, after, rfl⟩ := List.append_of_mem hentry
  obtain ⟨held, request, new, answer, -, posted, -⟩ := h.split
  exact ⟨held, request, new, answer, posted⟩

/-- Each entry is posted at the number to which the entries before it replay. -/
theorem posted_at {before after : List MemoryAccess} {entry : MemoryAccess}
    (h : Ledger 0 (before ++ entry :: after) w) :
    ∃ request answer,
      Posted (Memory.replay before) request entry (Memory.replay (before ++ [entry])) answer := by
  obtain ⟨held, request, new, answer, hbefore, hentry, -⟩ := h.split
  have hnew : Memory.replay (before ++ [entry]) = new := (hbefore.append (single hentry)).replay_eq
  rw [hbefore.replay_eq, hnew]
  exact ⟨request, answer, hentry⟩

end Ledger

/-- One use of the register makes one entry, the one of the table. -/
theorem Memory.access_posted (m : Memory) (request : MemoryRequest) (time : Instant) :
    ∃ entry, (m.access request time).1.log = m.log ++ [entry] ∧
      Posted m.value request entry (m.access request time).1.value (m.access request time).2 := by
  cases request with
  | store x => exact ⟨_, rfl, .store x time⟩
  | retrieve => exact ⟨_, rfl, .retrieve time⟩
  | clear => exact ⟨_, rfl, .clear time⟩
  | add x => exact ⟨_, rfl, .add x time⟩
  | subtract x => exact ⟨_, rfl, .subtract x time⟩

namespace Calculator

variable {c c' : Calculator}

/-- Only a use of the register touches the memory. -/
theorem Effect.memory_eq {k : Call} (h : c.Effect k c') (hk : k.request? = none) :
    c'.memory = c.memory := by
  cases h with
  | computed asked value => rfl
  | accessed request => cases hk
  | configured asked => rfl
  | cleared => rfl
  | refused reason => rfl

theorem withSettings_memory {s : Settings} (h : c.withSettings s = .ok c') :
    c'.memory = c.memory := by
  rw [(withSettings_eq_ok.mp h).2]

/-- A run adds to the log just the entries of its own uses of the register, in order, and they lead
from the register before the run to the register after it. -/
theorem run_ledger (c : Calculator) (calls : List Call) :
    ∃ uses, (c.run calls).memory.log = c.memory.log ++ uses ∧
      uses.map (·.action) = (calls.filterMap Call.request?).map MemoryRequest.action ∧
      Ledger c.memory.value uses (c.run calls).memory.value := by
  induction calls generalizing c with
  | nil => exact ⟨[], (List.append_nil _).symm, rfl, .nil _⟩
  | cons k calls ih =>
    obtain ⟨uses, hlog, hactions, hledger⟩ := ih (c.apply k)
    cases hk : k.request? with
    | none =>
      have hmemory : (c.apply k).memory = c.memory := (c.apply_effect k).memory_eq hk
      rw [hmemory] at hlog hledger
      rw [List.filterMap_cons_none hk]
      exact ⟨uses, hlog, hactions, hledger⟩
    | some request =>
      obtain rfl : k = .access request := by
        cases k <;> cases hk
        rfl
      obtain ⟨entry, hentry, posted⟩ := c.memory.access_posted request c.now
      refine ⟨entry :: uses, ?_, ?_, .cons posted hledger⟩
      · rw [run_cons, hlog, List.append_cons]
        exact congrArg (· ++ uses) hentry
      · rw [List.filterMap_cons_some hk, List.map_cons, List.map_cons, posted.action_eq, hactions]

theorem ledger_of_reachable (h : c.Reachable) : Ledger 0 c.memory.log c.memory.value := by
  induction h with
  | fresh clock => exact .nil 0
  | withSettings _ hs ih => rw [withSettings_memory hs]; exact ih
  | @apply c _ k ih =>
    obtain ⟨uses, hlog, -, hledger⟩ := c.run_ledger [k]
    rw [run_cons, run_nil] at hlog hledger
    rw [hlog]
    exact ih.append hledger

/-- **The log accounts for the register.**  In a reachable state every entry is one of the table, made
at the number to which the entries before it replay, and all of them together replay to the
register.  A use of the register makes one entry, that of the table for the number that was held,
and answers as the table says.  No other call, and no change to other settings, touches the
register or its log; so a run adds the entries of its own uses and no others. -/
theorem memory_accounted (h : c.Reachable) :
    (∀ before entry after, c.memory.log = before ++ entry :: after →
      ∃ request answer,
        Posted (Memory.replay before) request entry (Memory.replay (before ++ [entry])) answer) ∧
    Memory.replay c.memory.log = c.memory.value ∧
    (∀ request : MemoryRequest, ∃ entry,
      (c.access request).1.memory.log = c.memory.log ++ [entry] ∧
      Posted c.memory.value request entry (c.access request).1.memory.value (c.access request).2) ∧
    (∀ k : Call, k.request? = none → (c.apply k).memory = c.memory) ∧
    (∀ (s : Settings) (c' : Calculator), c.withSettings s = .ok c' → c'.memory = c.memory) ∧
    ∀ calls : List Call, ∃ uses,
      (c.run calls).memory.log = c.memory.log ++ uses ∧
      uses.map (·.action) = (calls.filterMap Call.request?).map MemoryRequest.action ∧
      Ledger c.memory.value uses (c.run calls).memory.value := by
  have hledger : Ledger 0 c.memory.log c.memory.value := ledger_of_reachable h
  refine ⟨?_, hledger.replay_eq, ?_, ?_, ?_, c.run_ledger⟩
  · intro before entry after hlog
    rw [hlog] at hledger
    exact hledger.posted_at
  · intro request
    exact c.memory.access_posted request c.now
  · intro k hk
    exact (c.apply_effect k).memory_eq hk
  · intro s c' hs
    exact withSettings_memory hs

/-- The five uses of the register with other calls between them. -/
def registerRun : List Call :=
  [.access (.store 9), .compute (.binary .divide 1 0), .access (.add 0.5), .clearHistory,
    .access .retrieve, .compute (.binary .add 1 2), .access .clear, .access (.subtract 2)]

theorem registerRun_accounted :
    (run { clock := .still ⟨0, 0⟩ } registerRun).Reachable ∧
      (run { clock := .still ⟨0, 0⟩ } registerRun).memory.log.map (fun a => (a.value, a.old, a.new)) =
        [(9, some 0, 9), (0.5, some 9, 9.5), (9.5, none, 9.5), (9.5, some 9.5, 0),
          (2, some 0, -2)] ∧
      Memory.replay (run { clock := .still ⟨0, 0⟩ } registerRun).memory.log =
        (run { clock := .still ⟨0, 0⟩ } registerRun).memory.value := by
  have h : (run { clock := .still ⟨0, 0⟩ } registerRun).Reachable := Reachable.run (.fresh _) _
  exact ⟨h, by decide +kernel, (memory_accounted h).2.1⟩

end Calculator

end DeskCalculator
