import DeskCalculator.Proofs.Instants
import DeskCalculator.Proofs.Records
import DeskCalculator.Proofs.Rereading

/-!
# DeskCalculator.Proofs.RecordRoundTrip — entries that are written and read back

An entry whose numbers are finite is read back from its text with all that is exact in it: the
operation, the instant, and which of its numbers are there.  The numbers themselves come back beside
what they were, and as they were where few digits are written for them.

* `entries_return`: what is read back from the text of an entry.
-/

namespace DeskCalculator

open Binary64
open Json.Value (Brief)

/-- What a number may come back as. -/
structure Returns (x y : Float) : Prop where
  beside : Beside x y
  exact : Brief x → y = x

theorem exists_reread {x : Float} (h : x.isFinite = true) :
    ∃ y, reread x = some y ∧ Returns x y := by
  obtain ⟨y, hread, hbeside, hexact⟩ := Json.Value.toFloat?_ofFloat h
  exact ⟨y, hread, hbeside, hexact⟩

theorem exists_rereadOption {x : Option Float} (h : ∀ v ∈ x, v.isFinite = true) :
    ∃ y, rereadOption x = some y ∧ Option.Rel Returns x y := by
  cases x with
  | none => exact ⟨none, rfl, .none⟩
  | some v =>
    obtain ⟨w, hread, hreturns⟩ := exists_reread (h v rfl)
    refine ⟨some w, ?_, .some hreturns⟩
    rw [rereadOption_of_finite (h v rfl), hread]
    rfl

/-- The instants of the years with four digits, without the leap seconds. -/
def Instant.Plain (t : Instant) : Prop :=
  0 ≤ t.date.year ∧ t.date.year ≤ 9999 ∧ t.nanos < nanosPerSecond

instance (t : Instant) : Decidable t.Plain := inferInstanceAs (Decidable (_ ∧ _))

theorem Instant.Plain.read?_write {t : Instant} (h : t.Plain) : read? t.write = some t :=
  Instant.read?_write h.1 h.2.1 h.2.2

/-- The calculations with finite numbers only. -/
def Calculation.Finite (c : Calculation) : Prop :=
  c.first.isFinite = true ∧ (∀ b ∈ c.second, b.isFinite = true) ∧ c.result.isFinite = true

instance (c : Calculation) : Decidable c.Finite := inferInstanceAs (Decidable (_ ∧ _))

/-- The memory accesses with finite numbers only. -/
def MemoryAccess.Finite (a : MemoryAccess) : Prop :=
  a.value.isFinite = true ∧ (∀ v ∈ a.old, v.isFinite = true) ∧ a.new.isFinite = true

instance (a : MemoryAccess) : Decidable a.Finite := inferInstanceAs (Decidable (_ ∧ _))

/-- **What is read back from the text of an entry.**  It is the same entry, but that each number in
it may have become another one beside it. -/
theorem entries_return :
    (∀ c : Calculation, c.Finite → c.time.Plain → ∃ c', Calculation.ofText? c.text = some c' ∧
      c'.operation = c.operation ∧ Returns c.first c'.first ∧
      Option.Rel Returns c.second c'.second ∧ Returns c.result c'.result ∧ c'.time = c.time) ∧
    ∀ a : MemoryAccess, a.Finite → a.time.Plain → ∃ a', MemoryAccess.ofText? a.text = some a' ∧
      a'.action = a.action ∧ Returns a.value a'.value ∧ Option.Rel Returns a.old a'.old ∧
      Returns a.new a'.new ∧ a'.time = a.time := by
  refine ⟨fun c hfinite htime => ?_, fun a hfinite htime => ?_⟩
  · obtain ⟨hfirst, hsecond, hresult⟩ := hfinite
    obtain ⟨first, hfirst, first_returns⟩ := exists_reread hfirst
    obtain ⟨second, hsecond, second_returns⟩ := exists_rereadOption hsecond
    obtain ⟨result, hresult, result_returns⟩ := exists_reread hresult
    exact ⟨⟨c.operation, first, second, result, c.time⟩,
      Calculation.ofText?_text.mpr ⟨rfl, hfirst, hsecond, hresult, htime.read?_write⟩, rfl,
      first_returns, second_returns, result_returns, rfl⟩
  · obtain ⟨hvalue, hold, hnew⟩ := hfinite
    obtain ⟨value, hvalue, value_returns⟩ := exists_reread hvalue
    obtain ⟨old, hold, old_returns⟩ := exists_rereadOption hold
    obtain ⟨new, hnew, new_returns⟩ := exists_reread hnew
    exact ⟨⟨a.action, value, old, new, a.time⟩,
      MemoryAccess.ofText?_text.mpr ⟨rfl, hvalue, hold, hnew, htime.read?_write⟩, rfl,
      value_returns, old_returns, new_returns, rfl⟩

/-- One by four, at a moment within a second. -/
def quarter : Calculation := ⟨"divide", 1, some 4, 0.25, ⟨1709285400, 123000000⟩⟩

/-- A retrieval of the zero with a minus sign, which has no old value. -/
def signedRetrieval : MemoryAccess :=
  ⟨.retrieve, zero .negative, none, zero .negative, ⟨1709285400, 0⟩⟩

theorem quarter_returns : Calculation.ofText? quarter.text = some quarter ∧
    MemoryAccess.ofText? signedRetrieval.text = some signedRetrieval := by
  constructor
  · obtain ⟨⟨operation, first, second, result, time⟩, hread, rfl, hfirst, hsecond, hresult, rfl⟩ :=
      entries_return.1 quarter (by decide +kernel) (by decide +kernel)
    obtain rfl := hfirst.exact (by decide +kernel)
    obtain rfl := hresult.exact (by decide +kernel)
    cases hsecond with
    | some hsecond =>
      obtain rfl := hsecond.exact (by decide +kernel)
      exact hread
  · obtain ⟨⟨action, value, old, new, time⟩, hread, rfl, hvalue, hold, hnew, rfl⟩ :=
      entries_return.2 signedRetrieval (by decide +kernel) (by decide +kernel)
    obtain rfl := hvalue.exact (Json.Value.brief_zero .negative)
    obtain rfl := hnew.exact (Json.Value.brief_zero .negative)
    cases hold
    exact hread

/-- One by eleven, for which sixteen digits are written. -/
def eleventh : Calculation := ⟨"divide", 1, some 11, 1 / 11, ⟨1709285400, 0⟩⟩

/-- Not all entries come back as they were: that of an eleventh does not. -/
theorem eleventh_changes :
    ¬ ((∀ c : Calculation, c.Finite → c.time.Plain → Calculation.ofText? c.text = some c) ∧
      ∀ a : MemoryAccess, a.Finite → a.time.Plain → MemoryAccess.ofText? a.text = some a) := by
  rintro ⟨h, -⟩
  have hread := h eleventh (by decide +kernel) (by decide +kernel)
  obtain ⟨-, -, -, hresult, -⟩ := Calculation.ofText?_text.mp hread
  revert hresult
  decide +kernel

end DeskCalculator
