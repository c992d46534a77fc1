import DeskCalculator.Proofs.NumberGrammar
import DeskCalculator.Proofs.Precision

/-!
# DeskCalculator.Proofs.PrecisionLine — what a line with `prec` does

The word behind `prec` goes through three checks.  First it has to be an integer, as a whole where
reading is strict and at its start where it is lenient; the integer has to fit 64 bits; and then it
has to be a precision.  Each check has its own words for what it refuses.

* `NumberGrammar.integer`: the texts of integers, with `WritesInteger` for what they say.
* `scanInteger_of_longest`, `scanInteger_eq_none`: the reader of integers takes the longest prefix,
  and gives it up if it does not fit.
* `Interpreter.precision_line`: what the line does, in both ways of reading.
-/

namespace DeskCalculator

open Numeral (AllDigits)
open NumberGrammar (sign digits mem_sign mem_digits)

/-! ## The texts of integers -/

/-- The texts of integers: a sign, which may be left out, and one digit or more. -/
def NumberGrammar.integer : Language Char := sign * digits

open NumberGrammar (integer)

/-- `WritesInteger p n`: the text is a sign, which may be left out, and digits, and what they say is
the integer `n`, however great it is. -/
def WritesInteger (p : List Char) (n : Int) : Prop :=
  ∃ sign digits, AllDigits digits ∧ digits ≠ [] ∧ writtenSign sign ++ digits = p ∧
    n = signedValue sign (digitsValue digits)

section

variable {cs p : List Char} {n : Int}

theorem spellsInteger_iff : SpellsInteger p n ↔ WritesInteger p n ∧ fitsWord n := by
  constructor
  · rintro ⟨sign, digits, hdigits, hne, hp, hn, hfits⟩
    exact ⟨⟨sign, digits, hdigits, hne, hp, hn⟩, hfits⟩
  · rintro ⟨⟨sign, digits, hdigits, hne, hp, hn⟩, hfits⟩
    exact ⟨sign, digits, hdigits, hne, hp, hn, hfits⟩

theorem mem_integer : p ∈ integer ↔ ∃ n, WritesInteger p n := by
  simp only [integer, Language.mem_mul, mem_sign, mem_digits]
  constructor
  · rintro ⟨_, ⟨s, rfl⟩, ds, ⟨hds, hne⟩, rfl⟩
    exact ⟨_, s, ds, hds, hne, rfl, rfl⟩
  · rintro ⟨n, s, ds, hds, hne, rfl, -⟩
    exact ⟨_, ⟨s, rfl⟩, ds, ⟨hds, hne⟩, rfl⟩

/-! ## The integer that a text starts with -/

/-- Digits go on as far as they can in the longest prefix. -/
theorem digitless_behind_longest {rest : List Char} (h : LongestPrefix integer (p ++ rest) p) :
    Digitless rest := by
  intro c hc
  cases rest with
  | nil => cases hc
  | cons d rest =>
    obtain rfl : d = c := by simpa using hc
    rw [Bool.eq_false_iff]
    intro hdigit
    obtain ⟨n, s, ds, hds, hne, rfl, -⟩ := mem_integer.mp h.mem
    have hlonger : writtenSign s ++ (ds ++ [d]) ∈ integer :=
      mem_integer.mpr ⟨_, s, ds ++ [d],
        List.forall_mem_append.mpr ⟨hds, by simpa using hdigit⟩, by simp, rfl, rfl⟩
    have hle := h.longest _ ⟨rest, by simp⟩ hlonger
    simp at hle

/-- The integer of the longest prefix is read, unless it does not fit 64 bits. -/
theorem scanInteger_of_longest (h : LongestPrefix integer cs p) (hn : WritesInteger p n) :
    (scanInteger cs).map Prod.fst = if fitsWord n then some n else none := by
  obtain ⟨rest, rfl⟩ := h.isPrefix
  have hrest := digitless_behind_longest h
  obtain ⟨s, ds, hds, hne, rfl, rfl⟩ := hn
  rw [List.append_assoc, scanInteger_of_opens hds hne hrest]
  split <;> rfl

theorem scanInteger_eq_none (h : ∀ q, q <+: cs → q ∉ integer) : scanInteger cs = none := by
  cases hscan : scanInteger cs with
  | none => rfl
  | some read =>
    obtain ⟨text, hspells, htext⟩ := scanInteger_sound (Prod.eta read ▸ hscan)
    exact absurd (mem_integer.mpr ⟨_, (spellsInteger_iff.mp hspells).1⟩) (h text ⟨_, htext⟩)

end

/-- A text that has a prefix in a language has a longest one. -/
theorem exists_longestPrefix {l : Language Char} {cs q : List Char} (hq : q <+: cs) (hmem : q ∈ l) :
    ∃ p, LongestPrefix l cs p := by
  classical
  have hfound : q ∈ cs.inits.toFinset.filter (· ∈ l) := by simp [hq, hmem]
  obtain ⟨p, hp, hmax⟩ := Finset.exists_max_image _ List.length ⟨q, hfound⟩
  simp only [Finset.mem_filter, List.mem_toFinset, List.mem_inits] at hp hmax
  exact ⟨p, hp.1, hp.2, fun r hr hrl => hmax r ⟨hr, hrl⟩⟩

/-! ## The line -/

namespace Interpreter

variable {i : Interpreter} {line token : String}

/-- What comes of asking for the precision `n`: it is set and named, or refused for its range. -/
def askPrecision (i : Interpreter) (n : Int) : Interpreter × Except Fault (Option Reply) :=
  if 0 ≤ n ∧ n ≤ 15 then
    let settings := { i.calculator.settings with precision := .ofNat n.toNat }
    ({ i with calculator := { i.calculator with settings } },
      .ok (some { text := "Precision set to " ++ toString n }))
  else (i, .error (.badPrecision (toString n)))

theorem answer_setPrecision (i : Interpreter) (help : String) (n : Int) :
    i.answer ((Instruction.setPrecision n).perform help i.calculator) = i.askPrecision n := by
  by_cases hn : 0 ≤ n ∧ n ≤ 15
  · obtain ⟨k, rfl⟩ := Int.eq_ofNat_of_zero_le hn.1
    have hcheck : Settings.checkPrecision k = .ok (.ofNat k) := if_pos hn
    obtain ⟨-, hword⟩ := Settings.checkPrecision_eq_ok.mp hcheck
    have htext : toString (UInt32.ofNat k).toNat = toString (k : Int) := by
      rw [Int.ofNat_inj.mp hword]
      rfl
    simp only [askPrecision, if_pos hn, Instruction.perform, Instruction.reply,
      Calculator.setPrecision, hcheck, Except.map, htext]
    rfl
  · simp only [askPrecision, if_neg hn, Instruction.perform, Instruction.reply,
      Calculator.setPrecision, Settings.checkPrecision_of_outside hn, Except.map]
    rfl

variable (hi : i.catalogue = .standard) (hline : splitLine line = some ("prec", [token]))
include hi hline

/-- The line reads its word as an integer, and then asks for the precision. -/
theorem submit_prec_eq : i.submit line =
    match i.strictness.integer .badPrecision token with
    | .ok n => i.askPrecision n
    | .error fault => (i, .error fault) := by
  obtain ⟨command, hfind⟩ : ∃ command, Catalogue.standard.find? "prec" = some command := ⟨_, rfl⟩
  obtain ⟨harity, haction⟩ : command.arity = 1 ∧ command.action = .setPrecision := by
    cases hfind
    exact ⟨rfl, rfl⟩
  have hread : command.action.read ⟨[token], i.strictness⟩ =
      i.strictness.integer .badPrecision token >>= fun n => .ok (.setPrecision n) := by
    rw [haction]
    rfl
  have hwords : [token].length = command.arity := harity.symm
  rw [submit_eq, hi, Catalogue.reading_of_known hline hfind]
  cases hinteger : i.strictness.integer .badPrecision token with
  | ok n =>
    rw [hinteger] at hread
    rw [Command.reading_of_ok hwords hread]
    exact i.answer_setPrecision _ n
  | error fault =>
    rw [hinteger] at hread
    rw [Command.reading_of_error hwords hread]
    rfl

/-- The line changes the precision at most. -/
theorem submit_prec_changes : ∃ precision, (i.submit line).1 =
    { i with
      calculator :=
        { i.calculator with settings := { i.calculator.settings with precision } } } := by
  have hsame : ∃ precision, i =
      { i with
        calculator :=
          { i.calculator with settings := { i.calculator.settings with precision } } } :=
    ⟨i.calculator.settings.precision, rfl⟩
  rw [submit_prec_eq hi hline]
  cases i.strictness.integer .badPrecision token with
  | error fault => exact hsame
  | ok n =>
    by_cases hn : 0 ≤ n ∧ n ≤ 15
    · exact ⟨_, congrArg Prod.fst (if_pos hn)⟩
    · obtain ⟨precision, hi'⟩ := hsame
      exact ⟨precision, (congrArg Prod.fst (if_neg hn)).trans hi'⟩

omit hi in
theorem lenient_integer : Strictness.lenient.integer .badPrecision token =
    ((scanInteger token.toList).map Prod.fst).elim (.error (.badPrecision token)) .ok := by
  have hword := splitLine_unspaced hline token List.mem_cons_self
  exact Strictness.integer_eq (s := .lenient) hword (fun h => by cases h) _

omit hi in
theorem strict_integer {n : Int} (hn : WritesInteger token.toList n) (hfits : fitsWord n) :
    Strictness.strict.integer .badPrecision token = .ok n := by
  have hword := splitLine_unspaced hline token List.mem_cons_self
  have hscan := scanInteger_written (spellsInteger_iff.mpr ⟨hn, hfits⟩)
  simp [Strictness.integer, wholeInteger?, Text.trim_of_unspaced hword, hscan]

/-- **What `prec` does**, with any word behind it and from any state.

Lenient reading looks for the longest prefix of the word that is an integer, whatever comes behind
it.  If there is none, or if what it writes does not fit 64 bits, the word is refused as it is.
Otherwise the integer that it writes is asked for: one from 0 to 15 is set, and any other is refused
by its decimal text.  Strict reading asks for the integer that the whole word writes, if that fits
64 bits, and refuses any other word for no number.

At most the precision is changed: a line that is refused changes nothing, and one that is carried
out keeps the angle unit, the history, the memory with its log, and the last result. -/
theorem precision_line :
    (i.strictness = .lenient →
      ((∃ p, p <+: token.toList ∧ p ∈ integer) → ∃ p n,
        LongestPrefix integer token.toList p ∧ WritesInteger p n ∧
        i.submit line =
          if fitsWord n then i.askPrecision n else (i, .error (.badPrecision token))) ∧
      ((∀ p, p <+: token.toList → p ∉ integer) →
        i.submit line = (i, .error (.badPrecision token)))) ∧
    (i.strictness = .strict →
      (∀ n, WritesInteger token.toList n → fitsWord n → i.submit line = i.askPrecision n) ∧
      ((∀ n, WritesInteger token.toList n → ¬ fitsWord n) →
        i.submit line = (i, .error (.notNumeric token)))) ∧
    (let before := i.calculator
      let after := (i.submit line).1.calculator
      after.settings.angleUnit = before.settings.angleUnit ∧ after.history = before.history ∧
        after.memory = before.memory ∧ after.lastResult = before.lastResult) := by
  have hsubmit := submit_prec_eq hi hline
  refine ⟨fun hs => ⟨?prefixes, ?none⟩, fun hs => ⟨?whole, ?refused⟩, ?kept⟩
  case prefixes =>
    rintro ⟨q, hq, hmem⟩
    obtain ⟨p, hp⟩ := exists_longestPrefix hq hmem
    obtain ⟨n, hn⟩ := mem_integer.mp hp.mem
    refine ⟨p, n, hp, hn, ?_⟩
    rw [hsubmit, hs, lenient_integer hline, scanInteger_of_longest hp hn]
    by_cases hfits : fitsWord n = true
    · rw [if_pos hfits, if_pos hfits]
      rfl
    · rw [if_neg hfits, if_neg hfits]
      rfl
  case none =>
    intro hnone
    rw [hsubmit, hs, lenient_integer hline, scanInteger_eq_none hnone]
    rfl
  case whole =>
    intro n hn hfits
    rw [hsubmit, hs, strict_integer hline hn hfits]
  case refused =>
    intro hnone
    have hword := splitLine_unspaced hline token List.mem_cons_self
    have hnot : ¬ ArgumentKind.integer.Accepts token := by
      rintro ⟨n, hspells⟩
      obtain ⟨hn, hfits⟩ := spellsInteger_iff.mp hspells
      exact hnone n hn hfits
    rw [hsubmit, hs, Strictness.strict_integer_of_not_accepts hword hnot]
  case kept =>
    intro before after
    obtain ⟨precision, hline'⟩ := submit_prec_changes hi hline
    have hafter : after = _ := congrArg Interpreter.calculator hline'
    rw [hafter]
    exact ⟨rfl, rfl, rfl, rfl⟩

omit hi hline

/-- A word that goes on behind its integer, and one that is an integer as a whole. -/
theorem precision_line_words :
    let i : Interpreter := { calculator := { clock := .still ⟨0, 0⟩ } }
    let j : Interpreter := { i with strictness := .strict }
    splitLine "PREC -016é" = some ("prec", ["-016é"]) ∧
      (∃ p n, LongestPrefix integer "-016é".toList p ∧ WritesInteger p n ∧
        i.submit "PREC -016é" =
          if fitsWord n then i.askPrecision n else (i, .error (.badPrecision "-016é"))) ∧
      (i.submit "PREC -016é").2 = .error (.badPrecision "-16") ∧
      splitLine "prec +015" = some ("prec", ["+015"]) ∧
      WritesInteger "+015".toList 15 ∧ j.submit "prec +015" = j.askPrecision 15 ∧
      (j.submit "prec +015").1.calculator.settings.precision = 15 := by
  intro i j
  have hlenient : splitLine "PREC -016é" = some ("prec", ["-016é"]) := by decide +kernel
  have hstrict : splitLine "prec +015" = some ("prec", ["+015"]) := by decide +kernel
  have hnegative : WritesInteger "-016".toList (-16) :=
    ⟨some .negative, ['0', '1', '6'], by simp [AllDigits], by simp, rfl, rfl⟩
  have hpositive : WritesInteger "+015".toList 15 :=
    ⟨some .positive, ['0', '1', '5'], by simp [AllDigits], by simp, rfl, rfl⟩
  have hprefix : "-016".toList <+: "-016é".toList := ⟨['é'], rfl⟩
  refine ⟨hlenient, ?_, by decide +kernel, hstrict, hpositive, ?_, by decide +kernel⟩
  · exact ((precision_line (i := i) rfl hlenient).1 rfl).1
      ⟨_, hprefix, mem_integer.mpr ⟨_, hnegative⟩⟩
  · exact ((precision_line (i := j) rfl hstrict).2.1 rfl).1 15 hpositive (by decide)

end Interpreter

end DeskCalculator
