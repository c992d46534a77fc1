import DeskCalculator.Proofs.Domains
import DeskCalculator.Proofs.RoundTrip
import DeskCalculator.Proofs.Sessions

/-!
# DeskCalculator.Proofs.Complaints — the numbers in the complaints of a session

The fault of an operation ends with the number that was refused.  This number is not written as
results are: it never has an exponent, a zero keeps its sign, and an infinity is `inf`.  The readers
know an infinity by another name, so that they find no number in `inf`; all other numbers are read
as what they are.

* `Decimal.leadingNumber_plain`: the numbers that can be read again from the text of a fault.
* `Session.complaint_number`: what the last word of a complaint is read as.
-/

namespace DeskCalculator

open Binary64

/-! ## The last word of a text -/

/-- What stands behind the last white space of a text. -/
def lastWord (text : String) : String :=
  .ofList (text.toList.reverse.takeWhile (!Text.isBlank ·)).reverse

theorem Text.unspaced_of_all {cs : List Char} (h : cs.all (!isBlank ·) = true) : Unspaced cs := by
  simpa [Unspaced] using h

theorem lastWord_append {front word : String} (hfront : front.toList.getLast? = some ' ')
    (hword : Text.Unspaced word.toList) : lastWord (front ++ word) = word := by
  obtain ⟨before, hbefore⟩ := List.getLast?_eq_some_iff.mp hfront
  have htext : (front ++ word).toList.reverse =
      word.toList.reverse ++ ' ' :: before.reverse := by simp [hbefore]
  have hreverse : ∀ c ∈ word.toList.reverse, (!Text.isBlank c) = true := by
    intro c hc
    rw [hword c (List.mem_reverse.mp hc)]
    rfl
  have hblank : Text.isBlank ' ' = true := rfl
  rw [lastWord, htext, List.takeWhile_append_of_pos hreverse,
    List.takeWhile_cons_of_neg (by simp [hblank]), List.append_nil, List.reverse_reverse,
    String.ofList_toList]

/-! ## Numbers in the text of a fault -/

namespace Decimal

variable {x : Float}

theorem plain_faithful : plain.Faithful := ⟨nofun, nofun⟩

theorem plain_infinity (s : Sign) : plain.write (infinity s) = signed "inf" s := by
  rw [Style.write, Style.chars, parts_infinity]
  exact String.ofList_toList

theorem plain_notANumber : plain.write notANumber = "NaN" := by
  rw [Style.write, Style.chars, parts_notANumber]
  rfl

/-- A finite number is written as a numeral of that number, with the sign of a zero. -/
theorem plain_numeral (hx : x.isFinite = true) :
    ∃ n : Numeral, n.WellFormed ∧ n.chars = (plain.write x).toList ∧ n.value = x := by
  rw [Style.write, String.toList_ofList]
  rw [isFinite_eq] at hx
  rcases number_cases x with rfl | ⟨s, rfl⟩ | ⟨s, rfl⟩ | ⟨s, m, q, hp, hparts⟩
  · rw [parts_notANumber] at hx
    cases hx
  · rw [parts_infinity] at hx
    cases hx
  · refine ⟨plain.zero s, placed_wellFormed (allDigits_zeros 1) (by decide) _ nofun, ?_, ?_⟩
    · rw [Style.chars, parts_zero]
    · cases s <;> decide +kernel
  · exact Style.exists_numeral_of_parts plain_faithful hp hparts

/-- A number in the text of a fault is one word. -/
theorem plain_unspaced (x : Float) : Text.Unspaced (plain.write x).toList := by
  rcases finite_or_infinity_or_nan x with hx | ⟨s, rfl⟩ | rfl
  · obtain ⟨n, hn, hchars, -⟩ := plain_numeral hx
    exact hchars ▸ Numeral.unspaced_chars hn
  · rw [plain_infinity]
    exact Text.unspaced_of_all (by cases s <;> decide)
  · rw [plain_notANumber]
    exact Text.unspaced_of_all (by decide)

theorem leadingNumber_plain_infinity (s : Sign) :
    leadingNumber (plain.write (infinity s)) = notANumber := by
  rw [plain_infinity]
  cases s <;> decide +kernel

/-- **All numbers but the infinities** can be read again from the text of a fault. -/
theorem leadingNumber_plain : leadingNumber (plain.write x) = x ↔ ∀ s, x ≠ infinity s := by
  constructor
  · rintro h s rfl
    rw [leadingNumber_plain_infinity] at h
    cases s <;> exact absurd h (by decide +kernel)
  · intro h
    rcases finite_or_infinity_or_nan x with hx | ⟨s, rfl⟩ | rfl
    · obtain ⟨n, hn, hchars, hvalue⟩ := plain_numeral hx
      rw [(Strictness.number_written hn hchars (plain_unspaced x)).1, hvalue]
    · exact absurd rfl (h s)
    · rw [plain_notANumber]
      decide +kernel

end Decimal

/-! ## Complaints -/

/-- The text of a fault ends with the number that was refused, behind a space. -/
theorem Fault.message_of_culprit {fault : Fault} {v : Float} (h : fault.culprit? = some v) :
    ∃ front, fault.message = front ++ Decimal.plain.write v ∧
      front.toList.getLast? = some ' ' := by
  cases fault with
  | negativeRoot x | negativeFactorial x | fractionalFactorial x | nonPositiveLogarithm x
  | badLogarithmBase x =>
    cases h
    exact ⟨_, rfl, by decide⟩
  | outsideUnitInterval function x =>
    cases h
    exact ⟨_, rfl, by simp⟩
  | divisionByZero | unknownAngleUnit _ | badPrecision _ | unknownCommand _ | wrongUsage _
  | notNumeric _ => cases h

namespace Session

variable {fault : Fault} {v : Float}

theorem lastWord_complaint (h : fault.culprit? = some v) :
    lastWord (complaint fault) = Decimal.plain.write v := by
  obtain ⟨front, hmessage, hfront⟩ := Fault.message_of_culprit h
  have hspace : ("Error: " ++ front).toList.getLast? = some ' ' := by
    rw [String.toList_append, List.getLast?_append, hfront, Option.some_or]
  rw [complaint, hmessage, ← String.append_assoc,
    lastWord_append hspace (Decimal.plain_unspaced v)]

/-- **The number of a complaint.**  Where a line fails for a number, in whatever state, the text that
is shown ends with that number.  It is read as the number again unless this is an infinity: those
are written as `inf` and `-inf`, which are read as NaN. -/
theorem complaint_number {s : Session} {line : String} (hrunning : s.running = true)
    (hfault : (s.interpreter.submit line).2 = .error fault) (hv : fault.culprit? = some v) :
    ∃ text, (s.processLine line).2 = some text ∧
      (leadingNumber (lastWord text) = v ↔ ∀ t, v ≠ infinity t) ∧
      ∀ t, v = infinity t →
        lastWord text = Decimal.signed "inf" t ∧ leadingNumber (lastWord text) = notANumber := by
  refine ⟨complaint fault, ?_, ?_, ?_⟩
  · rw [processLine_of_fault hrunning hfault]
  · rw [lastWord_complaint hv]
    exact Decimal.leadingNumber_plain
  · rintro t rfl
    rw [lastWord_complaint hv]
    exact ⟨Decimal.plain_infinity t, Decimal.leadingNumber_plain_infinity t⟩

/-- A number that is written with three hundred zeros. -/
theorem complaint_number_large :
    (freshSession.start.interpreter.submit "asin 1e300").2 =
      .error (.outsideUnitInterval "asin" 1e300) ∧
    ∃ text, (freshSession.start.processLine "asin 1e300").2 = some text ∧
      leadingNumber (lastWord text) = 1e300 := by
  have hfault : (freshSession.start.interpreter.submit "asin 1e300").2 =
      .error (.outsideUnitInterval "asin" 1e300) := by decide +kernel
  obtain ⟨text, htext, hread, -⟩ := complaint_number (s := freshSession.start) rfl hfault rfl
  refine ⟨hfault, text, htext, hread.mpr fun t => ?_⟩
  cases t <;> decide +kernel

/-- The infinity is refused, and what is said of it is not read as the infinity. -/
theorem complaint_of_infinity :
    (freshSession.start.interpreter.submit "sqrt -Infinity").2 =
      .error (.negativeRoot (infinity .negative)) ∧
    (freshSession.start.processLine "sqrt -Infinity").2 =
      some "Error: Cannot calculate square root of negative number: -inf" ∧
    leadingNumber (lastWord "Error: Cannot calculate square root of negative number: -inf") ≠
      infinity .negative := by
  have hfault : (freshSession.start.interpreter.submit "sqrt -Infinity").2 =
      .error (.negativeRoot (infinity .negative)) := by decide +kernel
  refine ⟨hfault, ?_, by decide +kernel⟩
  rw [processLine_of_fault rfl hfault]
  decide +kernel

end Session

end DeskCalculator
