import DeskCalculator.Proofs.Replies
import DeskCalculator.Proofs.RoundTrip

/-!
# DeskCalculator.Proofs.Chaining — going on from the last result

A chain command takes the last result for its first operand.  The user could as well type the last
result as it is displayed, before the same word, behind the command that takes two numbers: both
lines are refused for the same reason, or both enter the same computation.

* `Interpreter.chain_eq_typed`: the two lines have the same effect.
-/

namespace DeskCalculator

open Binary64

namespace Chain

/-- The command that goes on from the last result. -/
def command : Chain → String
  | add => "c+"
  | subtract => "c-"
  | multiply => "c*"
  | divide => "c/"

/-- The command for the same operation on two numbers. -/
def typedCommand : Chain → String
  | add => "add"
  | subtract => "sub"
  | multiply => "mul"
  | divide => "div"

theorem command_listed (op : Chain) : (op.command, .chain op) ∈ computingCommands := by
  cases op <;> decide

theorem typedCommand_listed (op : Chain) :
    (op.typedCommand, .binary op.operation) ∈ computingCommands := by
  cases op <;> decide

end Chain

/-! ## The words of the two lines -/

theorem isWord_of_listed {name : String} {action : Action}
    (h : (name, action) ∈ computingCommands) :
    Text.IsWord name.toList ∧ String.ofList (Text.lowercase name.toList) = name := by
  have hall : ∀ p ∈ computingCommands, (p.1.toList.all fun c => !Text.isBlank c) = true ∧
      p.1.toList ≠ [] ∧ String.ofList (Text.lowercase p.1.toList) = p.1 := by
    decide +kernel
  obtain ⟨hspaces, hne, hlower⟩ := hall _ h
  exact ⟨⟨fun c hc => by simpa using List.all_eq_true.mp hspaces c hc, hne⟩, hlower⟩

/-- A displayed number is a word. -/
theorem Display.isWord_number (x : Float) : Text.IsWord (number x).toList := by
  by_cases hx : x = notANumber
  · subst hx
    rw [number_notANumber]
    have hall : ("NaN".toList.all fun c => !Text.isBlank c) = true := by decide +kernel
    exact ⟨fun c hc => by simpa using List.all_eq_true.mp hall c hc, by decide⟩
  · obtain ⟨n, hn, hchars, -⟩ := exists_numeral hx
    obtain ⟨c, hopens, -⟩ := number_opens x
    exact ⟨hchars ▸ Numeral.unspaced_chars hn, List.ne_nil_of_mem (List.mem_of_head? hopens)⟩

/-- A displayed number is read as itself, but for the zero with a minus sign, and for NaN where
reading is strict. -/
theorem Strictness.number_displayed {s : Strictness} {x : Float} (hzero : x ≠ zero .negative)
    (hnan : s = .strict → x ≠ notANumber) : s.number (Display.number x) = .ok x := by
  by_cases hx : x = notANumber
  · cases s with
    | lenient =>
      show Except.ok (leadingNumber (Display.number x)) = _
      rw [Display.leadingNumber_number, unsigned_eq hzero]
    | strict => exact absurd hx (hnan rfl)
  · rw [(Display.number_unsigned hx).2 s, unsigned_eq hzero]

/-! ## The readings of the two lines -/

/-- What an attempt to read the arguments of a command makes of its line. -/
def Reading.ofRead : Except Fault Instruction → Reading
  | .ok i => .instruction i
  | .error fault => .refused fault

theorem reading_of_listed {strictness : Strictness} {name : String} {words : List String}
    {action : Action} (listed : (name, action) ∈ computingCommands)
    (hwords : ∀ w ∈ words, Text.IsWord w.toList) (harity : words.length = action.arity) :
    Catalogue.standard.reading strictness (" ".intercalate (name :: words)) =
      .ofRead (action.read ⟨words, strictness⟩) := by
  obtain ⟨hname, hlower⟩ := isWord_of_listed listed
  have hline : splitLine (" ".intercalate (name :: words)) = some (name, words) := by
    rw [splitLine_intercalate (List.forall_mem_cons.mpr ⟨hname, hwords⟩), hlower]
  obtain ⟨command, hfind, hcommand, rfl⟩ := find?_of_listed listed
  rw [Catalogue.reading_of_known hline hfind]
  exact if_neg (not_not_intro (harity.trans hcommand.symm))

section

variable {s : Strictness} {op : Chain} {x : Float} {first word : String}

theorem chain_reading (hword : Text.IsWord word.toList) :
    Catalogue.standard.reading s (" ".intercalate [op.command, word]) =
      .ofRead ((s.number word).map (.chain op)) := by
  rw [reading_of_listed op.command_listed (by simpa using hword) rfl]
  show Reading.ofRead (s.number word >>= fun b => .ok (.chain op b)) = _
  cases s.number word <;> rfl

theorem typed_reading (hfirst : Text.IsWord first.toList) (hx : s.number first = .ok x)
    (hword : Text.IsWord word.toList) :
    Catalogue.standard.reading s (" ".intercalate [op.typedCommand, first, word]) =
      .ofRead ((s.number word).map fun b => .compute (.binary op.operation x b)) := by
  rw [reading_of_listed op.typedCommand_listed (by simpa using ⟨hfirst, hword⟩) rfl]
  show Reading.ofRead (s.number first >>= fun x => s.number word >>= fun b =>
    .ok (.compute (.binary op.operation x b))) = _
  rw [bind_of_ok hx]
  cases s.number word <;> rfl

end

/-- The results that go on from the last one are not rounded. -/
theorem Chain.result_eq (op : Chain) (settings : Settings) (a b : Float) :
    (Computation.binary op.operation a b).result settings = op.operation.value a b := by
  have hrounded : op.operation.isRounded = false := by cases op <;> rfl
  simp only [Computation.result, Computation.isRounded, hrounded, Computation.value]
  cases op.operation.value a b <;> rfl

namespace Interpreter

/-- A computation that is asked for is entered, or refused with nothing done. -/
theorem follow_computation {i : Interpreter} {x : Computation} {instruction : Instruction}
    {words : Float → String}
    (h : ∀ help, instruction.perform help i.calculator =
      Instruction.reply words (i.calculator.compute x)) :
    i.follow (.instruction instruction) =
      match x.result i.calculator.settings with
      | .ok result => ({ i with calculator := i.calculator.record x result },
          .ok (some { text := words result }))
      | .error fault => (i, .error fault) := by
  show i.answer (instruction.perform _ i.calculator) = _
  rw [h]
  cases hresult : x.result i.calculator.settings with
  | ok result => rw [Calculator.compute_of_ok hresult]; rfl
  | error fault => rw [Calculator.compute_of_error hresult]; rfl

/-- **A chain command does what the last result, typed as it is displayed, would do.**  With the
same word behind them, the chain command and the command for two numbers with the displayed last
result are both refused, for the same reason and with nothing done, or both have a reply and enter
the same computation, of the last result and of the number of the word, with the same result.  The
last result is not the zero with a minus sign, whose sign is not displayed, and not NaN where
reading is strict. -/
theorem chain_eq_typed {i : Interpreter} (hcatalogue : i.catalogue = .standard) (op : Chain)
    {word : String} (hword : Text.IsWord word.toList)
    (hzero : i.calculator.lastResult ≠ zero .negative)
    (hnan : i.strictness = .strict → i.calculator.lastResult ≠ notANumber) :
    let last := i.calculator.lastResult
    let chained := i.submit (" ".intercalate [op.command, word])
    let typed := i.submit (" ".intercalate [op.typedCommand, Display.number last, word])
    (∃ fault, chained = (i, .error fault) ∧ typed = (i, .error fault)) ∨
    ∃ b result answer answer', i.strictness.number word = .ok b ∧
      op.operation.value last b = .ok result ∧
      let after := { i with
        calculator := i.calculator.record (.binary op.operation last b) result }
      chained = (after, .ok (some answer)) ∧ typed = (after, .ok (some answer')) := by
  intro last chained typed
  have hchained : chained = i.follow (.ofRead ((i.strictness.number word).map (.chain op))) := by
    rw [← chain_reading hword, ← hcatalogue]
    exact i.submit_eq _
  have htyped : typed = i.follow (.ofRead ((i.strictness.number word).map
      fun b => .compute (.binary op.operation last b))) := by
    rw [← typed_reading (Display.isWord_number last) (Strictness.number_displayed hzero hnan) hword,
      ← hcatalogue]
    exact i.submit_eq _
  cases hsecond : i.strictness.number word with
  | error fault =>
    rw [hsecond] at hchained htyped
    exact .inl ⟨fault, hchained, htyped⟩
  | ok b =>
    rw [hsecond] at hchained htyped
    -- both instructions come down to the same computation
    have hchained : chained = _ := hchained.trans (follow_computation fun _ => rfl)
    have htyped : typed = _ := htyped.trans (follow_computation fun _ => rfl)
    rw [Chain.result_eq] at hchained htyped
    cases hresult : op.operation.value last b with
    | error fault =>
      rw [hresult] at hchained htyped
      exact .inl ⟨fault, hchained, htyped⟩
    | ok result =>
      rw [hresult] at hchained htyped
      exact .inr ⟨b, result, _, _, rfl, hresult, hchained, htyped⟩

/-- An interpreter that reads strictly, with 2.5 for the last result. -/
def halfway : Interpreter :=
  { calculator := { lastResult := nearest .positive 5 (-1), clock := .still ⟨0, 0⟩ }
    strictness := .strict }

/-- The state that both lines leave: ten, entered as a product of 2.5 and 4 at the time of the
clock, which was read once. -/
def halfwayTimesFour : Interpreter :=
  { halfway with
    calculator :=
      { halfway.calculator with
        lastResult := 10
        history := [
          { operation := "multiply"
            first := nearest .positive 5 (-1)
            second := some 4
            result := 10
            time := ⟨0, 0⟩ }]
        readings := 1 } }

theorem chain_eq_typed_halfway :
    halfway.submit "c* 4" = (halfwayTimesFour, .ok (some { text := "2.5 * 4 = 10" })) ∧
      halfway.submit "mul 2.5 4" =
        (halfwayTimesFour, .ok (some { text := "multiply(2.5, 4) = 10" })) := by
  have hword : Text.IsWord "4".toList :=
    ⟨fun c hc => by rw [List.mem_singleton.mp hc]; decide, by decide⟩
  have hshown : Display.number halfway.calculator.lastResult = "2.5" := by decide +kernel
  have hreply : (halfway.submit "c* 4").2 = .ok (some { text := "2.5 * 4 = 10" }) := by
    decide +kernel
  have hreply' :
      (halfway.submit "mul 2.5 4").2 = .ok (some { text := "multiply(2.5, 4) = 10" }) := by
    decide +kernel
  have hfour : halfway.strictness.number "4" = .ok 4 := by decide +kernel
  have hten : Chain.multiply.operation.value halfway.calculator.lastResult 4 = .ok 10 := by
    decide +kernel
  have h := chain_eq_typed (i := halfway) rfl .multiply hword (by decide +kernel)
    (fun _ => by decide +kernel)
  have hchain : " ".intercalate [Chain.multiply.command, "4"] = "c* 4" := rfl
  have htype : " ".intercalate [Chain.multiply.typedCommand, "2.5", "4"] = "mul 2.5 4" := rfl
  dsimp only at h
  rw [hshown, hchain, htype] at h
  rcases h with ⟨fault, hchained, -⟩ | ⟨b, result, answer, answer', hb, hresult, hchained, htyped⟩
  · rw [hchained] at hreply
    cases hreply
  · obtain rfl := Except.ok.inj (hfour.symm.trans hb)
    obtain rfl := Except.ok.inj (hten.symm.trans hresult)
    rw [hchained] at hreply
    rw [htyped] at hreply'
    rw [hchained, htyped]
    exact ⟨Prod.ext rfl hreply, Prod.ext rfl hreply'⟩

end Interpreter

end DeskCalculator
