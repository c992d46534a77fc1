import DeskCalculator.Proofs.Commands
import DeskCalculator.Proofs.History

/-!
# DeskCalculator.Proofs.Provenance — every entry of the history tells of one computation

An entry attests a computation under the settings that were in force when it was made: its tag and
its operands determine the computation, and its result is the value of that, rounded for nine of the
tags and as computed for the others.

* `entry_origin`: an entry of the history after some lines was there before them, or was made by one
  of them; in both cases it stays in its place from then on.
* `history_attested`: over the standard catalogue, every entry was made by one line, which asked for
  the computation that the entry attests.
-/

namespace DeskCalculator

/-! ## Tags -/

/-- The tags of the operations whose values are rounded. -/
def roundedTags : List String :=
  ["sin", "cos", "tan", "asin", "acos", "atan", "log10", "ln", "log"]

/-- The tags of the operations on two numbers. -/
def binaryTags : List String :=
  ["add", "subtract", "multiply", "divide", "modulus", "power", "log"]

namespace Unary

/-- All operations on one number. -/
def all : List Unary :=
  [squareRoot, cubeRoot, factorial, sine, cosine, tangent, arcsine, arccosine, arctangent,
    commonLog, naturalLog]

theorem find?_tag (f : Unary) : all.find? (·.tag == f.tag) = some f := by
  cases f <;> rfl

theorem eq_of_tag_eq {f g : Unary} (h : f.tag = g.tag) : f = g := by
  have hfind : all.find? (·.tag == f.tag) = some g := by rw [h, find?_tag]
  rw [find?_tag] at hfind
  exact Option.some.inj hfind

theorem isRounded_iff (f : Unary) : f.isRounded ↔ f.tag ∈ roundedTags := by
  cases f <;> decide

theorem tag_notMem_binaryTags (f : Unary) : f.tag ∉ binaryTags := by
  cases f <;> decide

end Unary

namespace Binary

/-- All operations on two numbers. -/
def all : List Binary := [add, subtract, multiply, divide, modulus, power, logarithm]

theorem find?_tag (f : Binary) : all.find? (·.tag == f.tag) = some f := by
  cases f <;> rfl

theorem eq_of_tag_eq {f g : Binary} (h : f.tag = g.tag) : f = g := by
  have hfind : all.find? (·.tag == f.tag) = some g := by rw [h, find?_tag]
  rw [find?_tag] at hfind
  exact Option.some.inj hfind

theorem isRounded_iff (f : Binary) : f.isRounded ↔ f.tag ∈ roundedTags := by
  cases f <;> decide

theorem tag_mem_binaryTags (f : Binary) : f.tag ∈ binaryTags := by
  cases f <;> decide

end Binary

namespace Computation

theorem isRounded_iff (x : Computation) : x.isRounded ↔ x.tag ∈ roundedTags := by
  cases x with
  | unary f x => exact f.isRounded_iff
  | binary f a b => exact f.isRounded_iff

theorem isSome_second_iff (x : Computation) : x.second.isSome ↔ x.tag ∈ binaryTags := by
  cases x with
  | unary f x =>
    constructor
    · intro h
      cases h
    · intro h
      exact absurd h f.tag_notMem_binaryTags
  | binary f a b => exact ⟨fun _ => f.tag_mem_binaryTags, fun _ => rfl⟩

/-- A computation can be told from its tag and its operands. -/
theorem eq_of_tag_eq {x y : Computation} (htag : x.tag = y.tag) (hfirst : x.first = y.first)
    (hsecond : x.second = y.second) : x = y := by
  cases x with
  | unary f u =>
    cases y with
    | unary g v =>
      obtain rfl : f = g := Unary.eq_of_tag_eq htag
      obtain rfl : u = v := hfirst
      rfl
    | binary g a b => cases hsecond
  | binary f a b =>
    cases y with
    | unary g v => cases hsecond
    | binary g a' b' =>
      obtain rfl : f = g := Binary.eq_of_tag_eq htag
      obtain rfl : a = a' := hfirst
      cases hsecond
      rfl

end Computation

/-! ## Entries and computations -/

/-- The entry `r` attests the computation `x` under the settings `s`. -/
structure Calculation.Attests (r : Calculation) (s : Settings) (x : Computation) : Prop where
  operation : r.operation = x.tag
  first : r.first = x.first
  second : r.second = x.second
  binary : r.second.isSome ↔ r.operation ∈ binaryTags
  value : ∃ raw, x.value s.angleUnit = .ok raw ∧
    r.result = if r.operation ∈ roundedTags then Binary64.roundTo raw s.precision else raw
  /-- No other computation has the tag and the operands of the entry. -/
  only : ∀ y : Computation, y.tag = r.operation → y.first = r.first → y.second = r.second → y = x

theorem Computation.exists_value {x : Computation} {s : Settings} {result : Float}
    (h : x.result s = .ok result) : ∃ raw, x.value s.angleUnit = .ok raw ∧
      result = if x.tag ∈ roundedTags then Binary64.roundTo raw s.precision else raw := by
  unfold Computation.result at h
  cases hvalue : x.value s.angleUnit with
  | ok raw =>
    rw [hvalue] at h
    cases h
    simp only [x.isRounded_iff]
    exact ⟨raw, rfl, rfl⟩
  | error fault => rw [hvalue] at h; cases h

theorem Calculator.entry_attests {c : Calculator} {x : Computation} {result : Float}
    (h : x.result c.settings = .ok result) : (c.entry x result).Attests c.settings x where
  operation := rfl
  first := rfl
  second := rfl
  binary := x.isSome_second_iff
  value := Computation.exists_value h
  only := fun _ htag hfirst hsecond => Computation.eq_of_tag_eq htag hfirst hsecond

/-! ## Lines and entries -/

namespace Interpreter

variable {i : Interpreter} {n : Nat} {r : Calculation}

/-- The history of the calculator. -/
def history (i : Interpreter) : List Calculation := i.calculator.history

/-- The entry `r` is made at the place `n` of the history by the line `line`, which asks for the
computation `x`; the operands and the settings are those from just before the line. -/
structure Makes (i : Interpreter) (line : String) (x : Computation) (n : Nat) (r : Calculation) :
    Prop where
  asked : Asks i.strictness i.calculator.lastResult line x
  attested : r.Attests i.calculator.settings x
  place : i.history.length = n
  made : (i.submit line).1.history = i.history ++ [r]

/-- The entry `r` is at the place `n` of the history now and after each of the lines. -/
def Stays (i : Interpreter) (lines : List String) (n : Nat) (r : Calculation) : Prop :=
  ∀ m, (i.feed (lines.take m)).history[n]? = some r

theorem stays_nil (h : i.history[n]? = some r) : i.Stays [] n r := by
  intro m
  rw [List.take_nil]
  exact h

theorem Stays.cons {line : String} {lines : List String} (h : i.history[n]? = some r)
    (later : (i.submit line).1.Stays lines n r) : i.Stays (line :: lines) n r := by
  intro m
  cases m with
  | zero => exact h
  | succ m => exact later m

/-- What a line does to the history: it keeps it, or it is `clear` and empties it, or it makes an entry
at its end. -/
theorem submit_history (hi : i.catalogue = .standard) (line : String) :
    (i.submit line).1.history = i.history ∨
      (splitLine line = some ("clear", []) ∧ (i.submit line).1.history = []) ∨
      ∃ x r, i.Makes line x i.history.length r := by
  have hcalculator := i.submit_calculator line
  rw [hi] at hcalculator
  cases hk : Catalogue.standard.call? i.strictness line with
  | none =>
    rw [hk] at hcalculator
    exact .inl (congrArg Calculator.history hcalculator)
  | some k =>
    rw [hk] at hcalculator
    have happly : (i.submit line).1.history = (i.calculator.apply k).history :=
      congrArg Calculator.history hcalculator
    cases i.calculator.apply_historyStep k with
    | kept history => exact .inl (happly.trans history)
    | emptied call history =>
      rw [call] at hk
      exact .inr (.inl ⟨splitLine_of_clears hk, happly.trans history⟩)
    | @entered x result asked value history =>
      have made : i.Makes line x i.history.length (i.calculator.entry x result) :=
        { asked := asks_iff.mpr ⟨k, hk, asked⟩
          attested := Calculator.entry_attests value
          place := rfl
          made := happly.trans history }
      exact .inr (.inr ⟨x, _, made⟩)

theorem getElem?_of_made {x : Computation} {line : String} {m : Nat} {r' : Calculation}
    (made : i.Makes line x m r') (hr : (i.submit line).1.history[n]? = some r) :
    i.history[n]? = some r ∨ i.Makes line x n r := by
  have hhistory := made.made
  rw [hhistory, List.getElem?_append] at hr
  split at hr
  case isTrue hn => exact .inl hr
  case isFalse hn =>
    rw [List.getElem?_singleton] at hr
    split at hr
    case isTrue hzero =>
      obtain rfl : r' = r := Option.some.inj hr
      have hplace : i.history.length = n := by omega
      exact .inr { made with place := hplace }
    case isFalse => cases hr

/-- **Where an entry comes from.**  An entry of the history after some lines was there before them, or
was made by one of them, and it stays where it is from then on. -/
theorem entry_origin (hi : i.catalogue = .standard) {lines : List String}
    (hr : (i.feed lines).history[n]? = some r) :
    i.Stays lines n r ∨ ∃ before line after x, lines = before ++ line :: after ∧
      (i.feed before).Makes line x n r ∧ ((i.feed before).submit line).1.Stays after n r := by
  induction lines generalizing i with
  | nil => exact .inl (stays_nil hr)
  | cons line lines ih =>
    have hi' : (i.submit line).1.catalogue = .standard := (i.submit_catalogue line).trans hi
    rcases ih hi' hr with later | ⟨before, line', after, x, rfl, made, later⟩
    · have hnow : (i.submit line).1.history[n]? = some r := later 0
      rcases submit_history hi line with kept | ⟨-, emptied⟩ | ⟨x, r', made⟩
      · rw [kept] at hnow
        exact .inl (.cons hnow later)
      · rw [emptied, List.getElem?_nil] at hnow
        cases hnow
      · rcases getElem?_of_made made hnow with hold | hnew
        · exact .inl (.cons hold later)
        · exact .inr ⟨[], line, lines, x, rfl, hnew, later⟩
    · exact .inr ⟨line :: before, line', after, x, rfl, made, later⟩

/-- Only `clear` takes an entry away. -/
theorem stays_of_no_clear (hi : i.catalogue = .standard) {lines : List String}
    (hclear : ∀ line ∈ lines, splitLine line ≠ some ("clear", []))
    (hr : i.history[n]? = some r) : i.Stays lines n r := by
  induction lines generalizing i with
  | nil => exact stays_nil hr
  | cons line lines ih =>
    rw [List.forall_mem_cons] at hclear
    refine .cons hr (ih ((i.submit_catalogue line).trans hi) hclear.2 ?_)
    rcases submit_history hi line with kept | ⟨clear, -⟩ | ⟨x, r', made⟩
    · rw [kept]
      exact hr
    · exact absurd clear hclear.1
    · have hn : n < i.history.length := (List.getElem?_eq_some_iff.mp hr).1
      rw [made.made, List.getElem?_append_left hn]
      exact hr

/-- **Every entry attests one computation.**  Lines are carried out over the standard catalogue, from
a fresh calculator with valid settings.  Every entry of the history then was made by one of the
lines, in its place behind the entries of that time; the line asked for the computation that the
entry attests, with the last result and under the settings from just before it.  No later line
changed the entry, and of the lines still to come only `clear` can take it away. -/
theorem history_attested {clock : Clock} {settings : Settings}
    (hnew : Calculator.new clock settings = .ok i.calculator) (hi : i.catalogue = .standard)
    {lines : List String} (hr : (i.feed lines).history[n]? = some r) :
    (∃ before line after x, lines = before ++ line :: after ∧
      (i.feed before).Makes line x n r ∧ ((i.feed before).submit line).1.Stays after n r) ∧
    ∀ more : List String, (∀ line ∈ more, splitLine line ≠ some ("clear", [])) →
      (i.feed lines).Stays more n r := by
  refine ⟨?_, ?_⟩
  · have hempty : i.history = [] := Calculator.withSettings_history hnew
    refine (entry_origin hi hr).resolve_left ?_
    intro hstays
    have hnow : i.history[n]? = some r := hstays 0
    rw [hempty, List.getElem?_nil] at hnow
    cases hnow
  · intro more hclear
    exact stays_of_no_clear ((i.feed_catalogue lines).trans hi) hclear hr

/-- A fresh interpreter. -/
def mixedStart : Interpreter := { calculator := { clock := .still ⟨0, 0⟩ }, strictness := .strict }

/-- Lines that change the angle unit and the precision between computations, with a fault and a use
of the memory behind them. -/
def mixedLines : List String :=
  ["prec 3", "sin 30.5", "mode radians", "prec 2", "c+ 1", "logb 2 9", "div 1 0", "mr"]

/-- The entry of `logb 2 9`: the base is the first operand, and the precision is two. -/
def mixedEntry : Calculation := ⟨"log", 2, some 9, 3.17, ⟨0, 0⟩⟩

theorem mixedLines_attested :
    (mixedStart.feed mixedLines).history[2]? = some mixedEntry ∧
      ∃ before line after x, mixedLines = before ++ line :: after ∧
        (mixedStart.feed before).Makes line x 2 mixedEntry ∧
        ((mixedStart.feed before).submit line).1.Stays after 2 mixedEntry := by
  have hr : (mixedStart.feed mixedLines).history[2]? = some mixedEntry := by decide +kernel
  have hnew : Calculator.new (.still ⟨0, 0⟩) {} = .ok mixedStart.calculator := rfl
  exact ⟨hr, (history_attested hnew rfl hr).1⟩

end Interpreter

end DeskCalculator
