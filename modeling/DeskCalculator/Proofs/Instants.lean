import DeskCalculator.Instant.Text
import DeskCalculator.Proofs.Calendar
import DeskCalculator.Proofs.RoundTrip
import DeskCalculator.Proofs.Styles

/-!
# DeskCalculator.Proofs.Instants — instants are read back from their texts

Each part of the text is read back by the step that is meant for it, when nothing follows by which
the part could go on; the steps in their order then read the whole text.

* `Instant.read?_write`: an instant of a year from 0 to 9999, outside a leap second, is read back
  from its text.
-/

namespace DeskCalculator.Instant

open Numeral (AllDigits Ends)

/-! ## Digits -/

section

variable {width n : Nat} (hwidth : 0 < width) (hn : n < 10 ^ width)
include hwidth hn

theorem length_padded : (padded width n).length = width := by
  have hlength := (Nat.length_toDigits_le_iff (by decide) hwidth).mpr hn
  simp only [padded, List.length_append, List.length_replicate]
  omega

theorem padded_ne_nil : padded width n ≠ [] := by
  intro h
  have hlength := length_padded hwidth hn
  rw [h, List.length_nil] at hlength
  omega

end

theorem allDigits_padded (width n : Nat) : AllDigits (padded width n) :=
  Decimal.allDigits_append (Decimal.allDigits_zeros _)
    fun _ hc => Nat.isDigit_of_mem_toDigits (by decide) (by decide) hc

theorem digitsValue_padded (width n : Nat) : digitsValue (padded width n) = n := by
  rw [padded, digitsValue_zeros_append, digitsValue_toDigits]

/-! ## Steps -/

section

variable {rest : List Char}

theorem scanBlanks_run {c : Char} (h : Text.isBlank c = false) (cs : List Char) :
    scanBlanks.run (c :: cs) = some ((), c :: cs) := by
  show some ((), Text.trimStart (c :: cs)) = _
  rw [Text.trimStart, List.dropWhile_cons_of_neg (by simp [h])]

theorem scanBlanks_digits {digits : List Char} (hdigits : AllDigits digits) (hne : digits ≠ []) :
    scanBlanks.run (digits ++ rest) = some ((), digits ++ rest) := by
  obtain ⟨c, cs, rfl⟩ := List.exists_cons_of_ne_nil hne
  exact scanBlanks_run (Numeral.not_blank_of_letter (.inl (hdigits c List.mem_cons_self))) _

theorem scanOneOf_run {allowed : List Char} {c : Char} (h : c ∈ allowed)
    (cs : List Char) : (scanOneOf allowed).run (c :: cs) = some (c, cs) := by
  unfold scanOneOf
  simp [StateT.run_bind, h]

theorem scanDigits_run {digits : List Char} (hdigits : AllDigits digits) (hne : digits ≠ [])
    (hrest : Digitless rest) (bound : Option Nat) (hbound : ∀ n ∈ bound, digits.length ≤ n) :
    (scanDigits bound).run (digits ++ rest) = some (digits, rest) := by
  unfold scanDigits
  have htaken : bound.elim digits digits.take = digits := by
    cases bound with
    | none => rfl
    | some n => exact List.take_of_length_le (hbound n rfl)
  simp [StateT.run_bind, takeWhile_digits hdigits hrest, htaken, hne]

theorem scanPair_run {least greatest n : Nat} (hleast : least ≤ n) (hgreatest : n ≤ greatest)
    (hn : n < 100) (hrest : Digitless rest) :
    (scanPair least greatest).run (padded 2 n ++ rest) = some (n, rest) := by
  have hdigits := allDigits_padded 2 n
  have hne : padded 2 n ≠ [] := padded_ne_nil (by decide) hn
  have hlength : (padded 2 n).length = 2 := length_padded (by decide) hn
  have hscan := scanDigits_run hdigits hne hrest (some 2) (by simp [hlength])
  unfold scanPair
  simp [StateT.run_bind, scanBlanks_digits hdigits hne, hscan, digitsValue_padded, hleast,
    hgreatest]

theorem scanYear_run {year : Nat} (hyear : year ≤ 9999) (hrest : Digitless rest) :
    scanYear.run (padded 4 year ++ rest) = some ((year : Int), rest) := by
  have hdigits := allDigits_padded 4 year
  have hne : padded 4 year ≠ [] := padded_ne_nil (by decide) (by omega)
  have hlength : (padded 4 year).length = 4 := length_padded (by decide) (by omega)
  have hsign : scanSign (padded 4 year ++ rest) = (none, padded 4 year ++ rest) :=
    scanSign_written none (unsigned_of_digits hdigits hne rest)
  have hscan := scanDigits_run hdigits hne hrest (some 4) (by simp [hlength])
  unfold scanYear
  simp [StateT.run_bind, scanBlanks_digits hdigits hne, hsign, hscan, digitsValue_padded]

/-- The digits of a fraction stand for billionths together with the zeros that are left out. -/
theorem scanFraction_point {width n : Nat} (hwidth : 0 < width) (hnine : width ≤ 9)
    (hn : n < 10 ^ width) (hrest : Digitless rest) :
    scanFraction.run ('.' :: (padded width n ++ rest)) = some (n * 10 ^ (9 - width), rest) := by
  have hdigits := allDigits_padded width n
  have hne : padded width n ≠ [] := padded_ne_nil hwidth hn
  have hlength : (padded width n).length = width := length_padded hwidth hn
  have hscan := scanDigits_run hdigits hne hrest none nofun
  have htake : (padded width n).take 9 = padded width n := List.take_of_length_le (by omega)
  unfold scanFraction
  simp [StateT.run_bind, hscan, htake, hlength, Nat.min_eq_right hnine, digitsValue_append_zeros,
    digitsValue_padded, Nat.mul_comm]

theorem scanFraction_run {nanos : Nat} (h : nanos < nanosPerSecond) (hrest : Ends rest) :
    scanFraction.run (fractionChars nanos ++ rest) = some (nanos, rest) := by
  unfold nanosPerSecond at h
  unfold fractionChars
  split
  · next hzero =>
    subst hzero
    cases rest with
    | nil => rfl
    | cons c rest =>
      have hpoint : c ≠ '.' := (hrest c rfl).2.1
      unfold scanFraction
      simp [StateT.run_bind, hpoint]
  · split
    · next hmillis =>
      have hscan := scanFraction_point (n := nanos / 1000000) (by decide : 0 < 3) (by decide)
        (by omega) hrest.digitless
      rw [List.cons_append, hscan]
      congr 2
      omega
    · split
      · next hmicros =>
        have hscan := scanFraction_point (n := nanos / 1000) (by decide : 0 < 6) (by decide)
          (by omega) hrest.digitless
        rw [List.cons_append, hscan]
        congr 2
        omega
      · have hscan := scanFraction_point (n := nanos) (by decide : 0 < 9) (by decide) (by omega)
          hrest.digitless
        rw [List.cons_append, hscan]
        simp

theorem scanOffset_run : scanOffset.run ['Z'] = some (0, []) := rfl

end

/-! ## Whole texts -/

theorem bind_run {α β : Type} {p : Scan α} {next : α → Scan β} {cs rest : List Char} {a : α}
    (h : p.run cs = some (a, rest)) : (p >>= next).run cs = (next a).run rest := by
  rw [StateT.run_bind, h]
  rfl

theorem digitless_cons {c : Char} (h : c.isDigit = false) (cs : List Char) :
    Digitless (c :: cs) := by
  intro d hd
  cases hd
  exact h

theorem digitless_fraction (nanos : Nat) (c : Char) (hc : c.isDigit = false) (cs : List Char) :
    Digitless (fractionChars nanos ++ c :: cs) := by
  unfold fractionChars
  split
  · exact digitless_cons hc cs
  · split
    · exact digitless_cons rfl _
    · split <;> exact digitless_cons rfl _

/-- The day of an instant in universal time. -/
def date (t : Instant) : Date := Date.ofDays (t.seconds / secondsPerDay)

/-- The second of its day of an instant in universal time. -/
def secondOfDay (t : Instant) : Nat := (t.seconds % secondsPerDay).toNat

theorem secondOfDay_lt (t : Instant) : t.secondOfDay < 86400 :=
  (Int.toNat_lt (Int.emod_nonneg _ (by decide))).mpr (Int.emod_lt_of_pos _ (by decide))

/-- The day and the hours, minutes and seconds on it make up the instant. -/
theorem seconds_eq (t : Instant) :
    t.date.toDays * secondsPerDay + (((t.secondOfDay / 3600 * 60 + t.secondOfDay / 60 % 60) * 60 +
      (t.secondOfDay % 60 - t.secondOfDay % 60 / 60) : Nat) - 0) = t.seconds := by
  have hsecond : (t.secondOfDay : Int) = t.seconds % 86400 :=
    Int.toNat_of_nonneg (Int.emod_nonneg _ (by decide))
  have hdays : t.date.toDays = t.seconds / 86400 := (Date.ofDays_spec _).2
  have hday : (secondsPerDay : Int) = 86400 := rfl
  rw [hdays, hday]
  omega

section

variable {t : Instant} (hfirst : 0 ≤ t.date.year) (hlast : t.date.year ≤ 9999)
  (hnanos : t.nanos < nanosPerSecond)
include hfirst hlast hnanos

theorem chars_eq : t.chars = padded 4 t.date.year.toNat ++ '-' :: (padded 2 t.date.month ++ '-' ::
    (padded 2 t.date.day ++ 'T' :: (padded 2 (t.secondOfDay / 3600) ++ ':' ::
    (padded 2 (t.secondOfDay / 60 % 60) ++ ':' :: (padded 2 (t.secondOfDay % 60) ++
    (fractionChars t.nanos ++ ['Z'])))))) := by
  have hleap : t.nanos / nanosPerSecond = 0 := Nat.div_eq_of_lt hnanos
  have hfraction : t.nanos % nanosPerSecond = t.nanos := Nat.mod_eq_of_lt hnanos
  have hyear : yearChars t.date.year = padded 4 t.date.year.toNat := by
    have habs : t.date.year.natAbs = t.date.year.toNat := by omega
    rw [yearChars, if_pos ⟨hfirst, hlast⟩, habs]
  rw [← hyear]
  unfold chars
  dsimp only
  rw [hleap, hfraction]
  simp [date, secondOfDay]

/-- The text of an instant is read as that instant. -/
theorem scan_chars : scan.run t.chars = some (t, []) := by
  have hvalid : t.date.Valid := (Date.ofDays_spec _).1
  obtain ⟨hmonth, hmonth', hday, -⟩ := id hvalid
  have hday' := hvalid.day_le
  have hsecond := t.secondOfDay_lt
  have hdash : Text.isBlank '-' = false := by decide
  have hcolon : Text.isBlank ':' = false := by decide
  rw [chars_eq hfirst hlast hnanos]
  unfold scan
  -- the parts of the text one after the other, each by its own step
  refine (bind_run (scanYear_run (by omega) (digitless_cons rfl _))).trans ?_
  refine (bind_run (scanBlanks_run hdash _)).trans ?_
  refine (bind_run (scanOneOf_run (by decide) _)).trans ?_
  refine (bind_run (scanPair_run hmonth hmonth' (by omega) (digitless_cons rfl _))).trans ?_
  refine (bind_run (scanBlanks_run hdash _)).trans ?_
  refine (bind_run (scanOneOf_run (by decide) _)).trans ?_
  refine (bind_run (scanPair_run hday hday' (by omega) (digitless_cons rfl _))).trans ?_
  refine (bind_run (scanOneOf_run (by decide) _)).trans ?_
  refine (bind_run (scanPair_run (by omega) (by omega) (by omega) (digitless_cons rfl _))).trans ?_
  refine (bind_run (scanBlanks_run hcolon _)).trans ?_
  refine (bind_run (scanOneOf_run (by decide) _)).trans ?_
  refine (bind_run (scanPair_run (by omega) (by omega) (by omega) (digitless_cons rfl _))).trans ?_
  refine (bind_run (scanBlanks_run hcolon _)).trans ?_
  refine (bind_run (scanOneOf_run (by decide) _)).trans ?_
  refine (bind_run (scanPair_run (by omega) (by omega) (by omega)
    (digitless_fraction _ _ rfl _))).trans ?_
  refine (bind_run (scanFraction_run hnanos (Numeral.ends_cons (by decide) _))).trans ?_
  refine (bind_run (scanBlanks_run (by decide) _)).trans ?_
  refine (bind_run scanOffset_run).trans ?_
  refine (bind_run (rfl : scanBlanks.run [] = some ((), []))).trans ?_
  have hyear : (t.date.year.toNat : Int) = t.date.year := Int.toNat_of_nonneg hfirst
  have htaken : yearIsTaken t.date.year = true := decide_eq_true (by omega)
  have hleap : t.secondOfDay % 60 / 60 = 0 := Nat.div_eq_of_lt (Nat.mod_lt _ (by decide))
  dsimp only
  rw [hyear, seconds_eq, ← date, if_pos ⟨hvalid, htaken, htaken⟩, hleap, Nat.zero_mul, Nat.zero_add]
  rfl

/-- **An instant is read back from its text.** -/
theorem read?_write : read? t.write = some t := by
  unfold read? write
  rw [String.toList_ofList, scan_chars hfirst hlast hnanos]

end

end DeskCalculator.Instant
