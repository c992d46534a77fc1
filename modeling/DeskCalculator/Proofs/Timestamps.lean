import DeskCalculator.Proofs.Lines
import Mathlib.Data.List.Nodup
import Mathlib.Data.List.Perm.Basic
import Mathlib.Order.Monotone.Basic

/-!
# DeskCalculator.Proofs.Timestamps — one reading of the clock for each record

The two histories of a calculator share one clock.  `made` lists the records of both in the order in
which a run makes them, also those that are no longer in a history at its end.  `Stamps` says what a
part of a run does with the clock: each of its records takes the next reading, and nothing else
takes any.  It holds of one step and of two parts one after the other, and so of every run.

* `Calculator.run_stamped`: the record with the number `i` carries the reading with that number, and
  the histories are in the order of the clock.
-/

namespace DeskCalculator

open scoped List

/-! ## The order of instants -/

/-- Instants are in the order of their seconds, and within a second in that of the nanoseconds. -/
instance : PartialOrder Instant where
  le s t := s.seconds < t.seconds ∨ s.seconds = t.seconds ∧ s.nanos ≤ t.nanos
  le_refl s := .inr ⟨rfl, Nat.le_refl s.nanos⟩
  le_trans s t u hst htu := by
    rcases hst with h | ⟨h, h'⟩ <;> rcases htu with k | ⟨k, k'⟩
    · exact .inl (h.trans k)
    · exact .inl (k ▸ h)
    · exact .inl (h ▸ k)
    · exact .inr ⟨h.trans k, h'.trans k'⟩
  le_antisymm s t hst hts := by
    have hseconds : s.seconds = t.seconds := by omega
    have hnanos : s.nanos = t.nanos := by omega
    cases s
    cases t
    exact congr (congrArg Instant.mk hseconds) hnanos

theorem Instant.lt_of_seconds_lt {s t : Instant} (h : s.seconds < t.seconds) : s < t := by
  refine ⟨.inl h, ?_⟩
  rintro (h' | ⟨h', -⟩) <;> omega

/-! ## Records -/

/-- An entry of one of the two histories. -/
inductive Record
  | calculation (r : Calculation)
  | access (a : MemoryAccess)

namespace Record

/-- When a record was made. -/
def time : Record → Instant
  | calculation r => r.time
  | access a => a.time

/-- The calculation of a record, if it is one. -/
def calculation? : Record → Option Calculation
  | calculation r => some r
  | access _ => none

/-- The use of the memory of a record, if it is one. -/
def access? : Record → Option MemoryAccess
  | access a => some a
  | calculation _ => none

theorem time_of_calculation? {r : Record} {entry : Calculation} (h : r.calculation? = some entry) :
    entry.time = r.time := by
  cases r <;> cases h
  rfl

theorem time_of_access? {r : Record} {entry : MemoryAccess} (h : r.access? = some entry) :
    entry.time = r.time := by
  cases r <;> cases h
  rfl

end Record

/-- What can be done with a calculator: an instruction, of which some only show something, and a
change to other settings. -/
inductive Use
  | perform (i : Instruction)
  | withSettings (s : Settings)

namespace Calculator

/-- The calculator after it was used, which is as it was if that was refused. -/
def use (help : String) (c : Calculator) : Use → Calculator
  | .perform i => (i.perform help c).1
  | .withSettings s => (c.withSettings s).toOption.getD c

/-- The calculator after it was used several times. -/
def useAll (help : String) (c : Calculator) (uses : List Use) : Calculator :=
  uses.foldl (use help) c

/-- The records by which the histories of `c'` go on from those of `c`. -/
def brought (c c' : Calculator) : List Record :=
  (c'.history.drop c.history.length).map .calculation ++
    (c'.memory.log.drop c.memory.log.length).map .access

/-- The records that a run makes, in order. -/
def made (help : String) (c : Calculator) : List Use → List Record
  | [] => []
  | u :: uses => brought c (c.use help u) ++ made help (c.use help u) uses

/-! ## What is done with the clock -/

/-- From `c` to `c'` the clock is read once for each of the records, in their order, and these are
what the histories are made longer by. -/
structure Stamps (c : Calculator) (records : List Record) (c' : Calculator) : Prop where
  clock : c'.clock = c.clock
  readings : c'.readings = c.readings + records.length
  times : records.map Record.time = (List.range' c.readings records.length).map c.clock.reading
  history : c'.history <:+ c.history ++ records.filterMap Record.calculation?
  log : c'.memory.log = c.memory.log ++ records.filterMap Record.access?

theorem Stamps.refl (c : Calculator) : c.Stamps [] c :=
  ⟨rfl, rfl, rfl, by simp, by simp⟩

theorem Stamps.trans {c c' c'' : Calculator} {records more : List Record}
    (h : c.Stamps records c') (h' : c'.Stamps more c'') : c.Stamps (records ++ more) c'' where
  clock := h'.clock.trans h.clock
  readings := by
    rw [h'.readings, h.readings, List.length_append, Nat.add_assoc]
  times := by
    rw [List.map_append, h.times, h'.times, h.readings, h.clock, List.length_append,
      ← List.range'_append_1, List.map_append]
  history := by
    obtain ⟨before, hbefore⟩ := h.history
    have hlonger : c'.history ++ more.filterMap Record.calculation? <:+
        c.history ++ (records ++ more).filterMap Record.calculation? := by
      refine ⟨before, ?_⟩
      rw [List.filterMap_append, ← List.append_assoc, hbefore, List.append_assoc]
    exact h'.history.trans hlonger
  log := by
    rw [h'.log, h.log, List.filterMap_append, List.append_assoc]

/-- A step makes the records that it brings, and there is at most one of them. -/
def Stamped (c c' : Calculator) : Prop :=
  c.Stamps (brought c c') c' ∧ (brought c c').length ≤ 1

/-- What leaves the log of the memory and the readings alone, and the history as well unless it
empties it, brings no record. -/
theorem stamped_of_kept {c c' : Calculator} (hclock : c'.clock = c.clock)
    (hreadings : c'.readings = c.readings) (hlog : c'.memory.log = c.memory.log)
    (hhistory : c'.history = c.history ∨ c'.history = []) : Stamped c c' := by
  have hbrought : brought c c' = [] := by
    rcases hhistory with h | h <;> simp [brought, h, hlog]
  have hsuffix : c'.history <:+ c.history := by
    rcases hhistory with h | h
    · exact h ▸ List.suffix_rfl
    · exact h ▸ List.nil_suffix
  unfold Stamped
  rw [hbrought]
  exact ⟨⟨hclock, hreadings, rfl, by simpa using hsuffix, by simpa using hlog⟩, Nat.zero_le 1⟩

theorem Effect.stamped {c c' : Calculator} {k : Call} (h : c.Effect k c') : Stamped c c' := by
  cases h with
  | @computed _ x result asked value =>
    have hbrought : brought c (c.record x result) = [.calculation (c.entry x result)] := by
      simp [brought, record]
    unfold Stamped
    rw [hbrought]
    exact ⟨⟨rfl, rfl, rfl, List.suffix_rfl, (List.append_nil _).symm⟩, le_rfl⟩
  | accessed request =>
    obtain ⟨entry, hlog, htime⟩ : ∃ entry : MemoryAccess,
        (c.access request).1.memory.log = c.memory.log ++ [entry] ∧ entry.time = c.now :=
      ⟨_, rfl, rfl⟩
    have hbrought : brought c (c.access request).1 = [.access entry] := by
      unfold brought
      rw [hlog]
      simp [access]
    unfold Stamped
    rw [hbrought]
    have hnone : [Record.access entry].filterMap Record.calculation? = [] := rfl
    have htimes : [Record.access entry].map Record.time = [c.now] := congrArg (fun t => [t]) htime
    exact ⟨⟨rfl, rfl, htimes, by simp [hnone, access], hlog⟩, le_rfl⟩
  | configured asked => exact stamped_of_kept rfl rfl rfl (.inl rfl)
  | cleared => exact stamped_of_kept rfl rfl rfl (.inr rfl)
  | refused reason => exact stamped_of_kept rfl rfl rfl (.inl rfl)

/-- **One step.**  However a calculator is used, it reads the clock just for the record that it
makes, if it makes one. -/
theorem use_stamped (help : String) (c : Calculator) (u : Use) : Stamped c (c.use help u) := by
  have hself : Stamped c c := stamped_of_kept rfl rfl rfl (.inl rfl)
  cases u with
  | perform i =>
    show Stamped c (i.perform help c).1
    rw [i.perform_fst]
    cases i.call? with
    | none => exact hself
    | some k => exact (c.apply_effect k).stamped
  | withSettings s =>
    show Stamped c ((c.withSettings s).toOption.getD c)
    cases h : c.withSettings s with
    | error fault => exact hself
    | ok c' =>
      obtain ⟨-, rfl⟩ := withSettings_eq_ok.mp h
      exact stamped_of_kept rfl rfl rfl (.inl rfl)

/-- **A whole run.** -/
theorem useAll_stamps (help : String) (c : Calculator) (uses : List Use) :
    c.Stamps (c.made help uses) (c.useAll help uses) := by
  induction uses generalizing c with
  | nil => exact .refl c
  | cons u uses ih => exact (c.use_stamped help u).1.trans (ih _)

/-! ## The two histories -/

/-- The records of both kinds are all the records. -/
theorem filterMap_perm (records : List Record) :
    ((records.filterMap Record.calculation?).map (·.time) ++
      (records.filterMap Record.access?).map (·.time)).Perm (records.map Record.time) := by
  induction records with
  | nil => exact .nil
  | cons r records ih =>
    cases r with
    | calculation r => exact ih.cons r.time
    | access a => exact List.perm_middle.trans (ih.cons a.time)

/-- The records of one kind are in the order of all. -/
theorem filterMap_sublist {α : Type} {kind : Record → Option α} {time : α → Instant}
    (hkind : ∀ r a, kind r = some a → time a = r.time) (records : List Record) :
    (records.filterMap kind).map time <+ records.map Record.time := by
  induction records with
  | nil => exact List.nil_sublist _
  | cons r records ih =>
    cases hr : kind r with
    | none =>
      rw [List.filterMap_cons_none hr]
      exact ih.cons r.time
    | some a =>
      rw [List.filterMap_cons_some hr, List.map_cons, hkind r a hr]
      exact ih.cons_cons r.time

section

variable {c c' : Calculator} {records : List Record} (h : c.Stamps records c')
include h

theorem Stamps.time_eq (n : Nat) (hn : n < records.length) :
    records[n].time = c.clock.reading (c.readings + n) := by
  have htimes := congrArg (·[n]?) h.times
  simpa [hn] using htimes

/-- The times of the records are in the order of the clock. -/
theorem Stamps.pairwise {R : Instant → Instant → Prop}
    (hclock : ∀ m n, m < n → R (c.clock.reading m) (c.clock.reading n)) :
    (records.map Record.time).Pairwise R := by
  rw [h.times, List.pairwise_map]
  exact List.Pairwise.imp (hclock _ _) List.pairwise_lt_range'

/-- In a run from an empty history the times of the two histories are among those of the records. -/
theorem Stamps.sublist (hhistory : c.history = []) (hlog : c.memory.log = []) :
    c'.history.map (·.time) <+ (records.filterMap Record.calculation?).map (·.time) ∧
      c'.memory.log.map (·.time) = (records.filterMap Record.access?).map (·.time) := by
  have hsuffix := h.history
  rw [hhistory, List.nil_append] at hsuffix
  refine ⟨hsuffix.sublist.map _, ?_⟩
  rw [h.log, hlog, List.nil_append]

end

/-- **One reading of the clock for each record.**  In every run from a fresh calculator the record
with the number `n`, of both histories together and with those that were removed again, carries the
reading with the number `n`; a step reads the clock just for the record that it makes; the histories
hold records of the run, so that they are in order if the clock never goes back, and no two of their
entries carry the same instant if it always goes on. -/
theorem run_stamped (clock : Clock) (settings : Settings) (help : String) (uses : List Use) :
    let start : Calculator := { clock, settings }
    let final := start.useAll help uses
    let records := start.made help uses
    (∀ (n : Nat) (hn : n < records.length), records[n].time = clock.reading n) ∧
    final.readings = records.length ∧
    (∀ (c : Calculator) (u : Use), (brought c (c.use help u)).length ≤ 1 ∧
      (c.use help u).readings = c.readings + (brought c (c.use help u)).length) ∧
    final.history <:+ records.filterMap Record.calculation? ∧
    final.memory.log = records.filterMap Record.access? ∧
    (Monotone clock.reading →
      final.history.Pairwise (·.time ≤ ·.time) ∧ final.memory.log.Pairwise (·.time ≤ ·.time)) ∧
    (StrictMono clock.reading →
      (final.history.map (·.time) ++ final.memory.log.map (·.time)).Nodup) := by
  intro start final records
  have h : start.Stamps records final := start.useAll_stamps help uses
  obtain ⟨hhistory, hlog⟩ := h.sublist rfl rfl
  refine ⟨?_, ?_, ?_, ?_, ?_, ?_, ?_⟩
  · intro n hn
    simpa [start] using h.time_eq n hn
  · simpa [start] using h.readings
  · intro c u
    obtain ⟨hstep, hshort⟩ := c.use_stamped help u
    exact ⟨hshort, hstep.readings⟩
  · simpa [start] using h.history
  · simpa [start] using h.log
  · intro hclock
    have hordered : (records.map Record.time).Pairwise (· ≤ ·) :=
      h.pairwise fun m n hmn => hclock hmn.le
    have hcalculations := filterMap_sublist (fun _ _ => Record.time_of_calculation?) records
    have haccesses := filterMap_sublist (fun _ _ => Record.time_of_access?) records
    refine ⟨List.pairwise_map.mp (hordered.sublist (hhistory.trans hcalculations)), ?_⟩
    exact List.pairwise_map.mp (hordered.sublist (hlog ▸ haccesses))
  · intro hclock
    have hdistinct : (records.map Record.time).Nodup :=
      h.pairwise fun m n hmn => (hclock hmn).ne
    rw [hlog]
    exact ((filterMap_perm records).nodup_iff.mpr hdistinct).sublist (hhistory.append (.refl _))

/-- A clock that goes on by a second at each reading. -/
def secondHand : Clock := ⟨fun n => ⟨n, 0⟩⟩

/-- A run with a refusal, displays, other settings, and an emptying of the history between its
records. -/
def stampedRun : List Use :=
  [.perform (.compute (.binary .add 1 2)), .perform (.memory (.store 9)), .perform .showHistory,
    .perform (.compute (.unary .squareRoot (-1))), .perform .clearHistory, .withSettings {},
    .perform (.chain .multiply 3), .perform (.memory .retrieve), .perform .showMemoryLog]

theorem run_stamped_secondHand :
    let start : Calculator := { clock := secondHand }
    let final := start.useAll "" stampedRun
    final.history.map (·.time.seconds) = [2] ∧ final.memory.log.map (·.time.seconds) = [1, 3] ∧
      final.readings = 4 ∧ (start.made "" stampedRun).length = 4 ∧
      final.memory.log.Pairwise (·.time ≤ ·.time) ∧
      (final.history.map (·.time) ++ final.memory.log.map (·.time)).Nodup := by
  have hclock : StrictMono secondHand.reading := by
    intro m n hmn
    exact Instant.lt_of_seconds_lt (Int.ofNat_lt.mpr hmn)
  have h := run_stamped secondHand {} "" stampedRun
  exact ⟨by decide +kernel, by decide +kernel, by decide +kernel, by decide +kernel,
    (h.2.2.2.2.2.1 hclock.monotone).2, h.2.2.2.2.2.2 hclock⟩

end Calculator

end DeskCalculator
