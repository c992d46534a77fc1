import DeskCalculator.Proofs.Domains
import DeskCalculator.Proofs.Restriction

/-!
# DeskCalculator.Proofs.Verdicts — what becomes of a line

The checks of a line have a fixed order: the name, the number of the arguments, where reading is
strict the arguments themselves, from the left, and then what the line asks for.  `Objects` lists
the reasons that are left for the last check, each with its fault: an operation that has no value at
the operands, a name of no angle unit, and a precision that is none.  A line that passes all of them
has a reply.

* `Interpreter.line_decided`: the outcome of every line over the standard catalogue.
-/

namespace DeskCalculator

open Binary64 (notANumber)
open Numeral (AllDigits)

/-! ## Integers at the start of a word -/

/-- `OpensWithInteger cs n`: the longest integer that the text starts with, a sign, which may be
left out, and digits, is `n`. -/
def OpensWithInteger (cs : List Char) (n : Int) : Prop :=
  ∃ sign digits rest, AllDigits digits ∧ digits ≠ [] ∧ Digitless rest ∧
    writtenSign sign ++ (digits ++ rest) = cs ∧ n = signedValue sign (digitsValue digits)

section

variable {cs : List Char} {n : Int}

theorem digitless_dropWhile (cs : List Char) : Digitless (cs.dropWhile Char.isDigit) := by
  intro c hc
  have hnot := List.head?_dropWhile_not Char.isDigit cs
  rwa [hc] at hnot

theorem scanInteger_of_opens {sign : Option Binary64.Sign} {digits rest : List Char}
    (hdigits : AllDigits digits) (hne : digits ≠ []) (hrest : Digitless rest) :
    scanInteger (writtenSign sign ++ (digits ++ rest)) =
      if fitsWord (signedValue sign (digitsValue digits)) then
        some (signedValue sign (digitsValue digits), rest)
      else none := by
  have hsign := scanSign_written sign (unsigned_of_digits hdigits hne rest)
  unfold scanInteger
  simp only [hsign, takeWhile_digits hdigits hrest, dropWhile_digits hdigits hrest]
  rw [if_neg (by simpa using hne)]

/-- The integer that is read is the one that the text starts with, if it fits 64 bits. -/
theorem scanInteger_map_fst : (scanInteger cs).map Prod.fst = some n ↔
    OpensWithInteger cs n ∧ fitsWord n := by
  constructor
  · intro h
    have hsign := scanSign_sound cs
    obtain ⟨⟨m, rest⟩, hscan, rfl⟩ := Option.map_eq_some_iff.mp h
    unfold scanInteger at hscan
    rcases hbody : scanSign cs with ⟨sign, body⟩
    simp only [hbody] at hscan hsign
    split at hscan
    · cases hscan
    · next hne =>
      split at hscan
      · next hfits =>
        cases hscan
        refine ⟨⟨sign, _, _, allDigits_takeWhile body, by simpa using hne,
          digitless_dropWhile body, ?_, rfl⟩, hfits⟩
        rw [List.takeWhile_append_dropWhile, hsign]
      · cases hscan
  · rintro ⟨⟨sign, digits, rest, hdigits, hne, hrest, rfl, rfl⟩, hfits⟩
    rw [scanInteger_of_opens hdigits hne hrest, if_pos hfits]
    rfl

end

/-! ## The last check -/

/-- The reasons against a line that is well formed, when words are taken for numbers by `strictness`
and the last result is `last`. -/
inductive Objects (strictness : Strictness) (last : Float) (line : String) : Fault → Prop
  | computation {x : Computation} {fault : Fault} (asked : Asks strictness last line x)
      (undefined : x.Undefined fault) : Objects strictness last line fault
  | mode {word : String} (words : splitLine line = some ("mode", [word]))
      (degrees : word ≠ "degrees") (radians : word ≠ "radians") :
      Objects strictness last line (.unknownAngleUnit word)
  | noInteger {word : String} (words : splitLine line = some ("prec", [word]))
      (none : ∀ n, OpensWithInteger word.toList n → ¬ fitsWord n) :
      Objects strictness last line (.badPrecision word)
  | outside {word : String} {n : Int} (words : splitLine line = some ("prec", [word]))
      (opens : OpensWithInteger word.toList n) (fits : fitsWord n) (range : ¬ (0 ≤ n ∧ n ≤ 15)) :
      Objects strictness last line (.badPrecision (toString n))

/-! ## Reading the arguments -/

section

variable {s : Strictness} {word : String} {n : Int}

/-- Where the word is not refused as a whole, its integer is the one that it starts with. -/
theorem Strictness.integer_eq (hword : Text.Unspaced word.toList)
    (hs : s = .strict → ArgumentKind.integer.Accepts word) (missing : String → Fault) :
    s.integer missing word =
      ((scanInteger word.toList).map Prod.fst).elim (.error (missing word)) .ok := by
  cases s with
  | lenient => simp only [integer, leadingInteger?, Text.trimStart_of_unspaced hword]
  | strict =>
    obtain ⟨n, hn⟩ := hs rfl
    have hscan := scanInteger_written hn
    simp [integer, wholeInteger?, Text.trim_of_unspaced hword, hscan]

end

/-- Lenient reading refuses no argument but one that is to be an integer. -/
theorem Action.read_lenient {action : Action} (words : List String) (h : action ≠ .setPrecision) :
    ∃ i, action.read ⟨words, .lenient⟩ = .ok i := by
  cases action with
  | setPrecision => exact absurd rfl h
  | binary f => exact ⟨_, rfl⟩
  | setAngleUnit => exact ⟨_, rfl⟩
  | fixed i => exact ⟨i, rfl⟩
  | unary _ | chain _ | memoryStore | memoryAdd | memorySubtract => exact ⟨_, rfl⟩

/-- Whether an instruction changes the settings. -/
def Instruction.configures : Instruction → Bool
  | setAngleUnit _ | setPrecision _ => true
  | compute _ | chain _ _ | memory _ | showLast | showHistory | showMemoryLog | showSettings
  | showConstant _ | clearHistory | help | exit => false

/-- Whether an action changes the settings. -/
def Action.configures : Action → Bool
  | setAngleUnit | setPrecision => true
  | unary _ | binary _ | chain _ | memoryStore | memoryAdd | memorySubtract => false
  | fixed i => i.configures

theorem standard_configures : ∀ command ∈ Command.standard, command.action.configures →
    command.name = "mode" ∧ command.action = .setAngleUnit ∨
      command.name = "prec" ∧ command.action = .setPrecision := by
  decide

theorem Action.configures_of_read {action : Action} {a : Arguments} {i : Instruction}
    (hread : action.read a = .ok i) (hi : i.configures) : action.configures := by
  cases action with
  | setAngleUnit | setPrecision => rfl
  | fixed j =>
    cases hread
    exact hi
  | binary f =>
    obtain ⟨x, -, y, -, rfl⟩ := read_binary.mp hread
    cases hi
  | unary _ | chain _ | memoryStore | memoryAdd | memorySubtract =>
    obtain ⟨x, -, hx⟩ := bind_eq_ok.mp hread
    cases hx
    cases hi

/-! ## Performing the instructions -/

namespace Instruction

variable {i : Instruction} {c : Calculator} {help : String} {fault : Fault}

/-- An instruction that asks for a computation is refused where that is undefined. -/
theorem perform_eq_error_of_asked {k : Call} {x : Computation} (hk : i.call? = some k)
    (hx : k.computation? c.lastResult = some x) :
    (i.perform help c).2 = .error fault ↔ x.Undefined fault := by
  cases i with
  | compute y =>
    cases hk
    cases hx
    show (Except.map _ (c.compute x).2) = .error fault ↔ _
    rw [map_eq_error, c.compute_snd, Computation.result_eq_error]
  | chain op b =>
    cases hk
    cases hx
    show (Except.map _ (c.compute (.binary op.operation c.lastResult b)).2) = .error fault ↔ _
    rw [map_eq_error, c.compute_snd, Computation.result_eq_error]
  | memory _ | setAngleUnit _ | setPrecision _ | clearHistory => cases hk; cases hx
  | showLast | showHistory | showMemoryLog | showSettings | showConstant _ | help | exit => cases hk

/-- An instruction is refused for its computation, or it changes the settings. -/
theorem asked_or_configures_of_error (h : (i.perform help c).2 = .error fault) :
    (∃ k x, i.call? = some k ∧ k.computation? c.lastResult = some x) ∨ i.configures := by
  cases i with
  | compute x => exact .inl ⟨_, _, rfl, rfl⟩
  | chain op b => exact .inl ⟨_, _, rfl, rfl⟩
  | setAngleUnit _ | setPrecision _ => exact .inr rfl
  | memory _ | showLast | showHistory | showMemoryLog | showSettings | showConstant _
  | clearHistory | help | exit => cases h

theorem perform_setAngleUnit {text : String} :
    ((setAngleUnit text).perform help c).2 = .error fault ↔
      (text ≠ "degrees" ∧ text ≠ "radians") ∧ fault = .unknownAngleUnit text := by
  show (Except.map _ (c.setAngleUnit text).2) = .error fault ↔ _
  rw [map_eq_error, c.setAngleUnit_snd]
  unfold AngleUnit.ofName
  split
  · simp_all
  · split
    · simp_all
    · simp_all [eq_comm]

theorem perform_setPrecision {n : Int} :
    ((setPrecision n).perform help c).2 = .error fault ↔
      ¬ (0 ≤ n ∧ n ≤ 15) ∧ fault = .badPrecision (toString n) := by
  show (Except.map _ (c.setPrecision n).2) = .error fault ↔ _
  rw [map_eq_error, c.setPrecision_snd]
  unfold Settings.checkPrecision
  show (if 0 ≤ n ∧ n ≤ 15 then _ else _) = _ ↔ _
  split
  · simp_all
  · simp_all [eq_comm]

end Instruction

/-! ## Carrying out the lines -/

namespace Interpreter

variable {i : Interpreter} {line name word : String} {words : List String} {command : Command}
  {instruction : Instruction} {fault : Fault}

section

variable (hi : i.catalogue = .standard) (hline : splitLine line = some (name, words))
include hi hline

theorem submit_of_unknown (hfind : Catalogue.standard.find? name = none) :
    (i.submit line).2 = .error (.unknownCommand name) := by
  rw [submit_snd, hi, Catalogue.reading_of_unknown hline hfind]
  rfl

variable (hfind : Catalogue.standard.find? name = some command)
include hfind

theorem submit_of_length_ne (h : words.length ≠ command.arity) :
    (i.submit line).2 = .error (.wrongUsage command.usage) := by
  rw [submit_snd, hi, Catalogue.reading_of_known hline hfind, Command.reading_of_length_ne h]
  rfl

variable (harity : words.length = command.arity)
include harity

theorem submit_of_read_error (hread : command.action.read ⟨words, i.strictness⟩ = .error fault) :
    (i.submit line).2 = .error fault := by
  rw [submit_snd, hi, Catalogue.reading_of_known hline hfind, Command.reading_of_error harity hread]
  rfl

theorem submit_of_read_ok (hread : command.action.read ⟨words, i.strictness⟩ = .ok instruction) :
    (i.submit line).2 = (instruction.perform i.catalogue.help i.calculator).2.map some := by
  rw [submit_snd, hi, Catalogue.reading_of_known hline hfind, Command.reading_of_ok harity hread]
  rfl

end

section

variable (hi : i.catalogue = .standard)
include hi

theorem submit_mode (hline : splitLine line = some ("mode", [word])) : (i.submit line).2 =
    ((Instruction.setAngleUnit word).perform i.catalogue.help i.calculator).2.map some :=
  submit_of_read_ok hi hline rfl rfl rfl

/-- A line with `prec` and one word that strict reading does not refuse. -/
theorem submit_prec (hline : splitLine line = some ("prec", [word]))
    (hs : i.strictness = .strict → ArgumentKind.integer.Accepts word) :
    ((∀ n, OpensWithInteger word.toList n → ¬ fitsWord n) →
      (i.submit line).2 = .error (.badPrecision word)) ∧
    ∀ n, OpensWithInteger word.toList n → fitsWord n → (i.submit line).2 =
      ((Instruction.setPrecision n).perform i.catalogue.help i.calculator).2.map some := by
  have hword := splitLine_unspaced hline word List.mem_cons_self
  have hinteger := Strictness.integer_eq hword hs .badPrecision
  constructor
  · intro hnone
    have hscan : (scanInteger word.toList).map Prod.fst = none := by
      refine Option.eq_none_iff_forall_ne_some.mpr fun n hn => ?_
      obtain ⟨hopens, hfits⟩ := scanInteger_map_fst.mp hn
      exact hnone n hopens hfits
    rw [hscan] at hinteger
    exact submit_of_read_error hi hline rfl rfl (bind_of_error hinteger _)
  · intro n hopens hfits
    rw [scanInteger_map_fst.mpr ⟨hopens, hfits⟩] at hinteger
    exact submit_of_read_ok hi hline rfl rfl (bind_of_ok hinteger _)

/-- A line that asks for a computation is refused where that is undefined. -/
theorem submit_of_asks {x : Computation} (asked : Asks i.strictness i.calculator.lastResult line x)
    (undefined : x.Undefined fault) : (i.submit line).2 = .error fault := by
  obtain ⟨k, hk, hx⟩ := asks_iff.mp asked
  rw [Catalogue.call?_eq_reading] at hk
  rw [submit_snd, hi]
  cases hread : Catalogue.standard.reading i.strictness line with
  | blank | refused _ => rw [hread] at hk; cases hk
  | instruction instruction =>
    rw [hread] at hk
    exact map_eq_error.mpr ((Instruction.perform_eq_error_of_asked hk hx).mpr undefined)

end

/-! ## The order of the checks -/

section

variable (hline : splitLine line = some (name, words))
  (hread : i.strictness = .strict → ∀ token, ¬ Misread (argumentKinds name) words token)
include hline hread

/-- The precision of a line that strict reading does not refuse. -/
theorem accepts_of_prec (hprec : splitLine line = some ("prec", [word])) :
    i.strictness = .strict → ArgumentKind.integer.Accepts word := by
  rw [hline] at hprec
  cases hprec
  intro hs
  by_contra refused
  exact hread hs word (.here refused)

variable (hfind : Catalogue.standard.find? name = some command)
  (harity : words.length = command.arity)
include hfind harity

/-- What passes the first checks is read as an instruction, but for an integer that is missing. -/
theorem exists_read (hconfigures : command.action.configures = false) :
    ∃ instruction, command.action.read ⟨words, i.strictness⟩ = .ok instruction ∧
      instruction.configures = false := by
  have hread : ∃ instruction, command.action.read ⟨words, i.strictness⟩ = .ok instruction := by
    cases hs : i.strictness with
    | lenient =>
      refine Action.read_lenient words ?_
      intro haction
      rw [haction] at hconfigures
      cases hconfigures
    | strict =>
      obtain ⟨hmem, rfl⟩ := mem_standard_of_find? hfind
      obtain ⟨hkinds, hlength⟩ := standard_arguments command hmem
      rcases accepted_or_misread (harity.trans hlength) with hall | ⟨token, hmisread⟩
      · obtain ⟨instruction, h⟩ := Action.read_of_accepts (splitLine_unspaced hline) hall
        exact ⟨instruction, h .strict⟩
      · exact absurd (hkinds ▸ hmisread) (hread hs token)
  obtain ⟨instruction, h⟩ := hread
  refine ⟨instruction, h, ?_⟩
  by_contra hnot
  have := Action.configures_of_read h (by simpa using hnot)
  rw [hconfigures] at this
  cases this

variable (hi : i.catalogue = .standard)
include hi

theorem objects_of_error (h : (i.submit line).2 = .error fault) :
    Objects i.strictness i.calculator.lastResult line fault := by
  obtain ⟨hmem, rfl⟩ := mem_standard_of_find? hfind
  have hlength := harity.trans (standard_arity command hmem)
  cases hconfigures : command.action.configures with
  | true =>
    rcases standard_configures command hmem hconfigures with ⟨hname, haction⟩ | ⟨hname, haction⟩
    · rw [haction] at hlength
      obtain ⟨word, rfl⟩ := List.length_eq_one_iff.mp hlength
      have hmode := hname ▸ hline
      rw [submit_mode hi hmode, map_eq_error] at h
      obtain ⟨⟨hdegrees, hradians⟩, rfl⟩ := Instruction.perform_setAngleUnit.mp h
      exact .mode hmode hdegrees hradians
    · rw [haction] at hlength
      obtain ⟨word, rfl⟩ := List.length_eq_one_iff.mp hlength
      have hprec := hname ▸ hline
      obtain ⟨hnone, hsome⟩ := submit_prec hi hprec (accepts_of_prec hline hread hprec)
      by_cases hint : ∃ n, OpensWithInteger word.toList n ∧ fitsWord n
      · obtain ⟨n, hopens, hfits⟩ := hint
        rw [hsome n hopens hfits, map_eq_error] at h
        obtain ⟨hrange, rfl⟩ := Instruction.perform_setPrecision.mp h
        exact .outside hprec hopens hfits hrange
      · have hno : ∀ n, OpensWithInteger word.toList n → ¬ fitsWord n :=
          fun n hopens hfits => hint ⟨n, hopens, hfits⟩
        rw [hnone hno] at h
        cases h
        exact .noInteger hprec hno
  | false =>
    obtain ⟨instruction, hinstruction, hnot⟩ := exists_read hline hread hfind harity hconfigures
    rw [submit_of_read_ok hi hline hfind harity hinstruction, map_eq_error] at h
    rcases Instruction.asked_or_configures_of_error h with ⟨k, x, hk, hx⟩ | hsome
    · have hcall : Catalogue.standard.call? i.strictness line = some k := by
        rw [Catalogue.call?_eq_reading, Catalogue.reading_of_known hline hfind,
          Command.reading_of_ok harity hinstruction]
        exact hk
      have hundefined := (Instruction.perform_eq_error_of_asked hk hx).mp h
      exact .computation (asks_iff.mpr ⟨k, hcall, hx⟩) hundefined
    · rw [hnot] at hsome
      cases hsome

omit hfind harity in
theorem error_of_objects (h : Objects i.strictness i.calculator.lastResult line fault) :
    (i.submit line).2 = .error fault := by
  cases h with
  | computation asked undefined => exact submit_of_asks hi asked undefined
  | mode hmode degrees radians =>
    rw [submit_mode hi hmode, map_eq_error]
    exact Instruction.perform_setAngleUnit.mpr ⟨⟨degrees, radians⟩, rfl⟩
  | noInteger hprec none => exact (submit_prec hi hprec (accepts_of_prec hline hread hprec)).1 none
  | outside hprec opens fits range =>
    rw [(submit_prec hi hprec (accepts_of_prec hline hread hprec)).2 _ opens fits, map_eq_error]
    exact Instruction.perform_setPrecision.mpr ⟨range, rfl⟩

/-- A line to which nothing is objected has a reply. -/
theorem reply_of_no_objection
    (h : ∀ fault, ¬ Objects i.strictness i.calculator.lastResult line fault) :
    ∃ reply, (i.submit line).2 = .ok (some reply) := by
  cases houtcome : (i.submit line).2 with
  | error fault => exact absurd (objects_of_error hline hread hfind harity hi houtcome) (h fault)
  | ok answer =>
    cases answer with
    | some reply => exact ⟨reply, rfl⟩
    | none =>
      cases hparsed : command.action.read ⟨words, i.strictness⟩ with
      | error fault =>
        rw [submit_of_read_error hi hline hfind harity hparsed] at houtcome
        cases houtcome
      | ok instruction =>
        rw [submit_of_read_ok hi hline hfind harity hparsed] at houtcome
        cases hperform : (instruction.perform i.catalogue.help i.calculator).2 <;>
          rw [hperform] at houtcome <;> cases houtcome

end

/-- **The outcome of every line.**  The first word of a line, in lower case, is the name.  If no
command has it, the line is refused for that; if one has it, the line is refused first for a wrong
number of further words, whatever they are; then, where reading is strict, for the leftmost argument
that is not what it is taken for; then for what `Objects` lists, each time with that fault and with
no other; and in every remaining case it has a reply.  No operation but the factorial refuses a
NaN. -/
theorem line_decided (hi : i.catalogue = .standard) {first : List Char} {others : List (List Char)}
    (hwords : Text.words line.toList = first :: others) :
    let name := String.ofList (Text.lowercase first)
    let words := others.map String.ofList
    let outcome := (i.submit line).2
    let objection := Objects i.strictness i.calculator.lastResult line
    ((∀ command ∈ Command.standard, command.name ≠ name) →
      outcome = .error (.unknownCommand name)) ∧
    (∀ command ∈ Command.standard, command.name = name →
      (words.length ≠ command.arity → outcome = .error (.wrongUsage command.usage)) ∧
      (words.length = command.arity →
        (∀ token, i.strictness = .strict → Misread (argumentKinds name) words token →
          outcome = .error (.notNumeric token)) ∧
        ((i.strictness = .strict → ∀ token, ¬ Misread (argumentKinds name) words token) →
          (∀ fault, outcome = .error fault ↔ objection fault) ∧
          ((∀ fault, ¬ objection fault) → ∃ reply, outcome = .ok (some reply))))) ∧
    (∀ (x : Computation) (fault : Fault), x.Undefined fault → fault.culprit? = some notANumber →
      fault = .fractionalFactorial notANumber) := by
  intro name words outcome objection
  have hline : splitLine line = some (name, words) := by
    unfold splitLine
    rw [hwords]
  refine ⟨fun hunknown => ?_, fun command hmem hname => ⟨fun hlength => ?_, fun harity => ⟨?_, ?_⟩⟩,
    fun _ _ => Computation.eq_fractionalFactorial_of_undefined⟩
  · have hnone : Catalogue.standard.find? name = none := by
      refine Option.eq_none_iff_forall_ne_some.mpr fun command hfind => ?_
      obtain ⟨hmem, hname⟩ := mem_standard_of_find? hfind
      exact hunknown command hmem hname
    exact submit_of_unknown hi hline hnone
  · exact submit_of_length_ne hi hline (hname ▸ find?_of_mem hmem) hlength
  · intro token hstrict hmisread
    have hfind : Catalogue.standard.find? name = some command := hname ▸ find?_of_mem hmem
    have hmisreads : Misreads line token := ⟨name, words, command, hline, hfind, harity, hmisread⟩
    exact congrArg Prod.snd (submit_of_misreads hi hstrict hmisreads)
  · intro hread
    have hfind : Catalogue.standard.find? name = some command := hname ▸ find?_of_mem hmem
    exact ⟨fun fault => ⟨objects_of_error hline hread hfind harity hi,
      error_of_objects hline hread hi⟩, reply_of_no_objection hline hread hfind harity hi⟩

/-- An interpreter with a fresh calculator. -/
def freshInterpreter (strictness : Strictness) : Interpreter :=
  { calculator := { clock := .still ⟨0, 0⟩ }, strictness }

/-- A base is refused before its number, a word that is no number before the division by zero, and a
NaN has a square root. -/
theorem line_decided_in_order :
    Objects .lenient 0 "LOGB 1 -5" (.badLogarithmBase 1) ∧
    ((freshInterpreter .strict).submit "div 8kg 0").2 = .error (.notNumeric "8kg") ∧
    ((freshInterpreter .lenient).submit "div 8kg").2 = .error (.wrongUsage "div <a> <b>") ∧
    ∃ reply, ((freshInterpreter .lenient).submit "sqrt NaN").2 = .ok (some reply) := by
  have hmem (n : Fin 38) : Command.standard[n] ∈ Command.standard := List.getElem_mem _
  have hlogb : Text.words "LOGB 1 -5".toList = ["LOGB".toList, "1".toList, "-5".toList] := rfl
  have hdiv : Text.words "div 8kg 0".toList = ["div".toList, "8kg".toList, "0".toList] := rfl
  have halone : Text.words "div 8kg".toList = ["div".toList, "8kg".toList] := rfl
  have hsqrt : Text.words "sqrt NaN".toList = ["sqrt".toList, "NaN".toList] := rfl
  refine ⟨?_, ?_, ?_, ?_⟩
  · have hbase := line_decided (i := freshInterpreter .lenient) rfl hlogb
    have hfault := ((hbase.2.1 _ (hmem 17) rfl).2 rfl).2 nofun
    exact (hfault.1 _).mp (by decide +kernel)
  · have hunit := line_decided (i := freshInterpreter .strict) rfl hdiv
    have hrefused : ¬ ArgumentKind.number.Accepts "8kg" := by
      rintro ⟨n, hn⟩
      have hscan := Numeral.scan_eq_whole.mpr hn
      have hrest : (Numeral.scan "8kg".toList).map Prod.snd = some [] :=
        congrArg (Option.map Prod.snd) hscan
      exact absurd hrest (by decide +kernel)
    exact ((hunit.2.1 _ (hmem 3) rfl).2 rfl).1 "8kg" rfl (.here hrefused)
  · have hcount := line_decided (i := freshInterpreter .lenient) rfl halone
    exact (hcount.2.1 _ (hmem 3) rfl).1 (by decide)
  · have hroot := line_decided (i := freshInterpreter .lenient) rfl hsqrt
    have hreply := ((hroot.2.1 _ (hmem 6) rfl).2 rfl).2 nofun
    have htext : ((freshInterpreter .lenient).submit "sqrt NaN").2 =
        .ok (some { text := "sqrt(NaN) = NaN" }) := by decide +kernel
    refine hreply.2 fun fault hobjects => ?_
    have herror := (hreply.1 fault).mpr hobjects
    rw [htext] at herror
    cases herror

end Interpreter

end DeskCalculator
