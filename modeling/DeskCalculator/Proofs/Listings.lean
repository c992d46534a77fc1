import DeskCalculator.Proofs.History
import DeskCalculator.Proofs.Ledger
import DeskCalculator.Proofs.Readings
import DeskCalculator.Proofs.RoundTrip

/-!
# DeskCalculator.Proofs.Listings — what the listings of the two histories tell

A listing has a heading and one line for each entry.  Names and numbers are made of word characters
alone, and what stands between them begins with another character, so that an entry can be told
from its line, up to its time and the signs of zeros.  Some lines of the memory leave out a number:
then it is the one that the register held, which the lines before it tell.

* `Interpreter.listings_tell`: equal listings come from histories that are alike.
-/

namespace DeskCalculator

open Binary64

/-! ## Alike entries -/

/-- Two calculations are the same but for their times and the signs of zeros. -/
structure Calculation.Alike (c c' : Calculation) : Prop where
  operation : c.operation = c'.operation
  first : unsigned c.first = unsigned c'.first
  second : c.second.map unsigned = c'.second.map unsigned
  result : unsigned c.result = unsigned c'.result

/-- Two uses of the memory are the same but for their times and the signs of zeros. -/
structure MemoryAccess.Alike (a a' : MemoryAccess) : Prop where
  action : a.action = a'.action
  value : unsigned a.value = unsigned a'.value
  old : a.old.map unsigned = a'.old.map unsigned
  new : unsigned a.new = unsigned a'.new

/-! ## Words -/

namespace Text

/-- The characters of which names and numbers are made. -/
def isWordChar (c : Char) : Bool := c.isAlphanum || "+-.".toList.contains c

/-- A text that is made of word characters. -/
def Word (cs : List Char) : Prop := ∀ c ∈ cs, isWordChar c

instance (cs : List Char) : Decidable (Word cs) :=
  decidable_of_iff (cs.all isWordChar) List.all_eq_true

theorem Word.notMem {cs : List Char} {c : Char} (h : Word cs) (hc : isWordChar c = false) :
    c ∉ cs := by
  intro hmem
  rw [h c hmem] at hc
  cases hc

/-- A word ends before the first character that is none of a word. -/
theorem word_append_inj {xs ys xs' ys' : List Char} {c d : Char} (hxs : Word xs) (hys : Word ys)
    (hc : isWordChar c = false) (hd : isWordChar d = false)
    (h : xs ++ c :: xs' = ys ++ d :: ys') : xs = ys ∧ c = d ∧ xs' = ys' := by
  have htake := congrArg (List.takeWhile isWordChar) h
  rw [List.takeWhile_append_of_pos hxs, List.takeWhile_append_of_pos hys,
    List.takeWhile_cons_of_neg (by simp [hc]), List.takeWhile_cons_of_neg (by simp [hd]),
    List.append_nil, List.append_nil] at htake
  subst htake
  simpa using h

end Text

open Text (Word word_append_inj)

namespace Display

theorem word_number (x : Float) : Word (number x).toList := by
  by_cases hx : x = notANumber
  · subst hx
    rw [number_notANumber]
    decide
  · obtain ⟨n, hn, hchars, -⟩ := exists_numeral hx
    rw [← hchars]
    intro c hc
    rcases Numeral.letter_of_mem_chars hn hc with h | h
    · simp [Text.isWordChar, Char.isAlphanum, h]
    · have hletters : Word "+-.eEInfinity".toList := by decide
      exact hletters c h

/-- Numbers that are displayed alike are the same but for the sign of a zero. -/
theorem unsigned_eq_of_number_eq {x y : Float} (h : (number x).toList = (number y).toList) :
    unsigned x = unsigned y := by
  rw [← leadingNumber_number x, ← leadingNumber_number y, String.toList_inj.mp h]

/-- A displayed number ends before the first character that is none of a word. -/
theorem number_append_inj {x y : Float} {c d : Char} {cs ds : List Char}
    (hc : Text.isWordChar c = false) (hd : Text.isWordChar d = false)
    (h : (number x).toList ++ c :: cs = (number y).toList ++ d :: ds) :
    unsigned x = unsigned y ∧ c = d ∧ cs = ds := by
  obtain ⟨hnumber, hbehind⟩ := word_append_inj (word_number x) (word_number y) hc hd h
  exact ⟨unsigned_eq_of_number_eq hnumber, hbehind⟩

/-! ## The line of a calculation -/

/-- A result behind an equality sign. -/
def resultChars (r : Float) : List Char := ' ' :: '=' :: ' ' :: (number r).toList

/-- What follows the first operand in a call. -/
def callRest (r : Float) : Option Float → List Char
  | none => ')' :: resultChars r
  | some b => ',' :: ' ' :: ((number b).toList ++ ')' :: resultChars r)

theorem resultChars_inj {r r' : Float} (h : resultChars r = resultChars r') :
    unsigned r = unsigned r' :=
  unsigned_eq_of_number_eq (by simpa [resultChars] using h)

theorem toList_call (tag : String) (a : Float) (b : Option Float) (r : Float) :
    (call tag a b r).toList = tag.toList ++ '(' :: ((number a).toList ++ callRest r b) := by
  cases b <;> simp [call, callRest, resultChars]

/-- A call tells its operands and its result. -/
theorem operands_inj {a a' r r' : Float} {b b' : Option Float}
    (h : (number a).toList ++ callRest r b = (number a').toList ++ callRest r' b') :
    unsigned a = unsigned a' ∧ b.map unsigned = b'.map unsigned ∧ unsigned r = unsigned r' := by
  match b, b' with
  | none, none =>
    obtain ⟨ha, -, hresult⟩ := number_append_inj (c := ')') (d := ')') rfl rfl h
    exact ⟨ha, rfl, resultChars_inj hresult⟩
  | some b, some b' =>
    obtain ⟨ha, -, hsecond⟩ := number_append_inj (c := ',') (d := ',') rfl rfl h
    obtain ⟨hb, -, hresult⟩ := number_append_inj rfl rfl (List.cons.inj hsecond).2
    exact ⟨ha, congrArg some hb, resultChars_inj hresult⟩
  | none, some b' =>
    obtain ⟨-, hseparator, -⟩ := number_append_inj (c := ')') (d := ',') rfl rfl h
    cases hseparator
  | some b, none =>
    obtain ⟨-, hseparator, -⟩ := number_append_inj (c := ',') (d := ')') rfl rfl h
    cases hseparator

theorem calculation_inj {c c' : Calculation} (hc : Word c.operation.toList)
    (hc' : Word c'.operation.toList) (h : calculation c = calculation c') : c.Alike c' := by
  have hchars := congrArg String.toList h
  simp only [calculation, toList_call] at hchars
  obtain ⟨htag, -, hbehind⟩ := word_append_inj hc hc' rfl rfl hchars
  obtain ⟨hfirst, hsecond, hresult⟩ := operands_inj hbehind
  exact ⟨String.toList_inj.mp htag, hfirst, hsecond, hresult⟩

/-! ## The line of a use of the memory -/

theorem word_name (action : MemoryAction) : Word action.name.toList := by
  cases action <;> decide

theorem name_inj {action action' : MemoryAction} (h : action.name = action'.name) :
    action = action' := by
  cases action <;> cases action' <;> first | rfl | exact absurd h (by decide)

/-- What follows the name in the line of a use of the memory. -/
def detail (a : MemoryAccess) : List Char :=
  let old := (number (a.old.getD 0)).toList
  let value := (number a.value).toList
  match a.action with
  | .store => value ++ " -> Memory".toList
  | .retrieve => "Memory = ".toList ++ value
  | .clear => old ++ " -> 0".toList
  | .add => old ++ ' ' :: '+' :: ' ' :: (value ++ resultChars a.new)
  | .subtract => old ++ ' ' :: '-' :: ' ' :: (value ++ resultChars a.new)

theorem toList_memoryAccess (a : MemoryAccess) :
    (memoryAccess a).toList = a.action.name.toList ++ ':' :: ' ' :: detail a := by
  obtain ⟨action, value, old, new, time⟩ := a
  cases action <;> simp [memoryAccess, detail, resultChars]

theorem memoryAccess_inj {a a' : MemoryAccess} (h : memoryAccess a = memoryAccess a') :
    a.action = a'.action ∧ detail a = detail a' := by
  have hchars := congrArg String.toList h
  simp only [toList_memoryAccess] at hchars
  obtain ⟨hname, -, hbehind⟩ := word_append_inj (word_name _) (word_name _) rfl rfl hchars
  exact ⟨name_inj (String.toList_inj.mp hname), (List.cons.inj hbehind).2⟩

/-- A sum or a difference with its result tells both operands and the result. -/
theorem posted_sum_inj {sign : Char} {u u' x x' v v' : Float}
    (h : (number u).toList ++ ' ' :: sign :: ' ' :: ((number x).toList ++ resultChars v) =
      (number u').toList ++ ' ' :: sign :: ' ' :: ((number x').toList ++ resultChars v')) :
    unsigned x = unsigned x' ∧ unsigned v = unsigned v' := by
  obtain ⟨-, -, hbehind⟩ := number_append_inj rfl rfl h
  obtain ⟨hx, -, hnew⟩ := number_append_inj rfl rfl (List.cons.inj (List.cons.inj hbehind).2).2
  exact ⟨hx, resultChars_inj (congrArg (' ' :: ·) hnew)⟩

/-- Two uses that are displayed alike, of registers that held the same number, are alike, and leave
the same number in the registers. -/
theorem posted_inj {u u' v v' answer answer' : Float} {request request' : MemoryRequest}
    {a a' : MemoryAccess} (ha : Posted u request a v answer)
    (ha' : Posted u' request' a' v' answer') (held : unsigned u = unsigned u')
    (h : memoryAccess a = memoryAccess a') :
    a.Alike a' ∧ unsigned v = unsigned v' := by
  obtain ⟨haction, hdetail⟩ := memoryAccess_inj h
  cases ha with
  | store =>
    cases ha' with
    | store =>
      have hnew : unsigned v = unsigned v' :=
        unsigned_eq_of_number_eq (List.append_cancel_right hdetail)
      exact ⟨⟨rfl, hnew, congrArg some held, hnew⟩, hnew⟩
    | retrieve | clear | add | subtract => cases haction
  | retrieve time =>
    cases ha' with
    | retrieve time' => exact ⟨⟨rfl, held, rfl, held⟩, held⟩
    | store | clear | add | subtract => cases haction
  | clear time =>
    cases ha' with
    | clear time' => exact ⟨⟨rfl, held, congrArg some held, rfl⟩, rfl⟩
    | store | retrieve | add | subtract => cases haction
  | add x time =>
    cases ha' with
    | add x' time' =>
      obtain ⟨hx, hnew⟩ := posted_sum_inj hdetail
      exact ⟨⟨rfl, hx, congrArg some held, hnew⟩, hnew⟩
    | store | retrieve | clear | subtract => cases haction
  | subtract x time =>
    cases ha' with
    | subtract x' time' =>
      obtain ⟨hx, hnew⟩ := posted_sum_inj hdetail
      exact ⟨⟨rfl, hx, congrArg some held, hnew⟩, hnew⟩
    | store | retrieve | clear | add => cases haction

end Display

/-! ## Listings -/

/-- The lines of a text. -/
def Text.linesOf (text : String) : List String := (text.toList.splitOn '\n').map String.ofList

/-- The text of a listing; `empty` stands for one without entries. -/
def listing {α : Type} (empty heading : String) (render : α → String) (items : List α) : String :=
  if items.isEmpty then empty else heading ++ "\n" ++ Display.numbered render items

namespace Display

theorem historyText_eq (history : List Calculation) : Instruction.historyText history =
    listing "No operations in history" "Operation history:" calculation history := rfl

theorem memoryLogText_eq (log : List MemoryAccess) : Instruction.memoryLogText log =
    listing "No memory operations" "Memory history:" memoryAccess log := rfl

variable {α : Type} {render : α → String} {items items' : List α} {empty heading : String}

theorem numberedFrom_eq_mapIdx (n : Nat) (render : α → String) (items : List α) :
    numberedFrom n render items = items.mapIdx fun k a => toString (n + k) ++ ". " ++ render a := by
  induction items generalizing n with
  | nil => rfl
  | cons a items ih =>
    rw [numberedFrom, ih, List.mapIdx_cons]
    simp only [Nat.add_zero, Nat.add_assoc, Nat.add_comm 1]

theorem map_eq_of_numberedFrom_eq {n : Nat}
    (h : numberedFrom n render items = numberedFrom n render items') :
    items.map render = items'.map render := by
  induction items generalizing items' n with
  | nil =>
    cases items' with
    | nil => rfl
    | cons a' items' => cases h
  | cons a items ih =>
    cases items' with
    | nil => cases h
    | cons a' items' =>
      obtain ⟨hline, hlines⟩ := List.cons.inj h
      have hrender : render a = render a' :=
        String.toList_inj.mp (by simpa using congrArg String.toList hline)
      rw [List.map_cons, List.map_cons, hrender, ih hlines]

/-- Lines that are put together can be taken apart again. -/
theorem linesOf_intercalate {lines : List String} (hne : lines ≠ [])
    (h : ∀ line ∈ lines, '\n' ∉ line.toList) :
    Text.linesOf ("\n".intercalate lines) = lines := by
  have hsplit : (['\n'].intercalate (lines.map String.toList)).splitOn '\n' =
      lines.map String.toList := by
    refine List.splitOn_intercalate '\n' ?_ (by simpa using hne)
    intro line hline
    obtain ⟨text, htext, rfl⟩ := List.mem_map.mp hline
    exact h text htext
  have htext : ("\n".intercalate lines).toList = ['\n'].intercalate (lines.map String.toList) :=
    String.toList_intercalate
  rw [Text.linesOf, htext, hsplit, List.map_map]
  simp

theorem newline_notMem_toDigits (n : Nat) : '\n' ∉ Nat.toDigits 10 n := by
  intro h
  have hdigit := Nat.isDigit_of_mem_toDigits (by decide) (by decide) h
  exact absurd hdigit (by decide)

theorem newline_notMem_numberedFrom {n : Nat} (hrender : ∀ a ∈ items, '\n' ∉ (render a).toList) :
    ∀ line ∈ numberedFrom n render items, '\n' ∉ line.toList := by
  rw [numberedFrom_eq_mapIdx]
  intro line hline
  obtain ⟨k, hk, rfl⟩ := List.mem_mapIdx.mp hline
  have hitem := hrender items[k] (List.getElem_mem hk)
  simp [newline_notMem_toDigits, hitem]

/-- **A listing is its heading and one line for each entry.** -/
theorem linesOf_listing (hheading : '\n' ∉ heading.toList)
    (hrender : ∀ a ∈ items, '\n' ∉ (render a).toList) (hne : items ≠ []) :
    Text.linesOf (listing empty heading render items) = heading :: numberedFrom 1 render items := by
  have hnumbered : numberedFrom 1 render items ≠ [] := by
    rw [numberedFrom_eq_mapIdx]
    simpa using hne
  have htext : listing empty heading render items =
      "\n".intercalate (heading :: numberedFrom 1 render items) := by
    rw [String.intercalate_cons_of_ne_nil hnumbered, listing, if_neg (by simpa using hne)]
    rfl
  rw [htext]
  refine linesOf_intercalate (List.cons_ne_nil _ _) fun line hline => ?_
  rcases List.mem_cons.mp hline with rfl | hline
  · exact hheading
  · exact newline_notMem_numberedFrom hrender line hline

theorem linesOf_listing_nil (hempty : '\n' ∉ empty.toList) :
    Text.linesOf (listing empty heading render []) = [empty] := by
  have h := linesOf_intercalate (List.cons_ne_nil empty []) (by simpa using hempty)
  rwa [String.intercalate_singleton] at h

/-- Equal listings have equal lines. -/
theorem map_eq_of_listing_eq (hempty : '\n' ∉ empty.toList) (hheading : '\n' ∉ heading.toList)
    (hrender : ∀ a ∈ items, '\n' ∉ (render a).toList)
    (hrender' : ∀ a ∈ items', '\n' ∉ (render a).toList)
    (h : listing empty heading render items = listing empty heading render items') :
    items.map render = items'.map render := by
  have hlines := congrArg Text.linesOf h
  by_cases hitems : items = []
  · by_cases hitems' : items' = []
    · rw [hitems, hitems']
    · rw [hitems, linesOf_listing_nil hempty, linesOf_listing hheading hrender' hitems'] at hlines
      have hlength := congrArg List.length hlines
      simp [numberedFrom_eq_mapIdx, hitems'] at hlength
  · by_cases hitems' : items' = []
    · rw [hitems', linesOf_listing_nil hempty, linesOf_listing hheading hrender hitems] at hlines
      have hlength := congrArg List.length hlines
      simp [numberedFrom_eq_mapIdx, hitems] at hlength
    · rw [linesOf_listing hheading hrender hitems, linesOf_listing hheading hrender' hitems']
        at hlines
      exact map_eq_of_numberedFrom_eq (List.cons.inj hlines).2

/-! ## The entries of the two histories -/

theorem newline_notMem_calculation {c : Calculation} (hc : Word c.operation.toList) :
    '\n' ∉ (calculation c).toList := by
  have htag := hc.notMem (c := '\n') rfl
  have hnumber (x : Float) := (word_number x).notMem (c := '\n') rfl
  rw [calculation, toList_call]
  cases c.second <;> simp [callRest, resultChars, htag, hnumber]

theorem newline_notMem_memoryAccess (a : MemoryAccess) : '\n' ∉ (memoryAccess a).toList := by
  have hname := (word_name a.action).notMem (c := '\n') rfl
  have hnumber (x : Float) := (word_number x).notMem (c := '\n') rfl
  rw [toList_memoryAccess]
  simp only [detail]
  split <;> simp [resultChars, hname, hnumber]

end Display

theorem Unary.word_tag (f : Unary) : Word f.tag.toList := by
  cases f <;> decide

theorem Binary.word_tag (f : Binary) : Word f.tag.toList := by
  cases f <;> decide

theorem Computation.word_tag (x : Computation) : Word x.tag.toList := by
  cases x with
  | unary f x => exact f.word_tag
  | binary f a b => exact f.word_tag

/-- Lists that look alike are alike, entry by entry, if this is so of their entries. -/
theorem forall₂_of_map_eq {α : Type} {R : α → α → Prop} {render : α → String}
    {items items' : List α} (h : items.map render = items'.map render)
    (hR : ∀ a ∈ items, ∀ a' ∈ items', render a = render a' → R a a') :
    List.Forall₂ R items items' := by
  induction items generalizing items' with
  | nil =>
    cases items' with
    | nil => exact .nil
    | cons a' items' => cases h
  | cons a items ih =>
    cases items' with
    | nil => cases h
    | cons a' items' =>
      obtain ⟨ha, hitems⟩ := List.cons.inj h
      refine .cons (hR a List.mem_cons_self a' List.mem_cons_self ha) (ih hitems ?_)
      intro b hb b' hb'
      exact hR b (List.mem_cons_of_mem _ hb) b' (List.mem_cons_of_mem _ hb')

/-- Logs that look alike are alike: what a line leaves out is what the register held. -/
theorem Ledger.alike {u u' v v' : Float} {log log' : List MemoryAccess} (h : Ledger u log v)
    (h' : Ledger u' log' v') (held : unsigned u = unsigned u')
    (hlines : log.map Display.memoryAccess = log'.map Display.memoryAccess) :
    List.Forall₂ MemoryAccess.Alike log log' := by
  induction h generalizing u' log' with
  | nil =>
    cases log' with
    | nil => exact .nil
    | cons a' log' => cases hlines
  | cons posted _ ih =>
    cases h' with
    | nil => cases hlines
    | cons posted' rest' =>
      obtain ⟨hline, hlines⟩ := List.cons.inj hlines
      obtain ⟨halike, hnew⟩ := Display.posted_inj posted posted' held hline
      exact .cons halike (ih rest' hnew hlines)

namespace Calculator

variable {c c' : Calculator}

/-- Every entry of the history is tagged with a computation. -/
theorem word_of_mem_history (h : c.Reachable) : ∀ r ∈ c.history, Word r.operation.toList := by
  intro r hr
  obtain ⟨before, x, result, -, rfl⟩ := exists_entry_of_mem h hr
  exact x.word_tag

theorem history_alike (h : c.Reachable) (h' : c'.Reachable)
    (htext : Instruction.historyText c.history = Instruction.historyText c'.history) :
    List.Forall₂ Calculation.Alike c.history c'.history := by
  have hwords := word_of_mem_history h
  have hwords' := word_of_mem_history h'
  rw [Display.historyText_eq, Display.historyText_eq] at htext
  have hlines := Display.map_eq_of_listing_eq (by decide) (by decide)
    (fun r hr => Display.newline_notMem_calculation (hwords r hr))
    (fun r hr => Display.newline_notMem_calculation (hwords' r hr)) htext
  exact forall₂_of_map_eq hlines fun r hr r' hr' =>
    Display.calculation_inj (hwords r hr) (hwords' r' hr')

theorem log_alike (h : c.Reachable) (h' : c'.Reachable)
    (htext : Instruction.memoryLogText c.memory.log = Instruction.memoryLogText c'.memory.log) :
    List.Forall₂ MemoryAccess.Alike c.memory.log c'.memory.log := by
  rw [Display.memoryLogText_eq, Display.memoryLogText_eq] at htext
  have hlines := Display.map_eq_of_listing_eq (by decide) (by decide)
    (fun a _ => Display.newline_notMem_memoryAccess a)
    (fun a _ => Display.newline_notMem_memoryAccess a) htext
  exact (ledger_of_reachable h).alike (ledger_of_reachable h') rfl hlines

end Calculator

namespace Interpreter

variable {i j : Interpreter}

theorem submit_hist (hi : i.catalogue = .standard) :
    (i.submit "hist").2 = .ok (some { text := Instruction.historyText i.calculator.history }) := by
  have hread : Catalogue.standard.reading i.strictness "hist" = .instruction .showHistory := by
    cases i.strictness <;> rfl
  rw [submit_snd, hi, hread]
  rfl

theorem submit_mhist (hi : i.catalogue = .standard) : (i.submit "mhist").2 =
    .ok (some { text := Instruction.memoryLogText i.calculator.memory.log }) := by
  have hread : Catalogue.standard.reading i.strictness "mhist" = .instruction .showMemoryLog := by
    cases i.strictness <;> rfl
  rw [submit_snd, hi, hread]
  rfl

/-- **What the listings tell.**  Reachable calculators that show the same history have histories of
the same length that are alike, entry by entry: in the operation, in whether there is a second
operand, and in the numbers but for the signs of zeros.  The same holds of the logs of the memory,
also of the numbers that their lines leave out.  A listing that is not empty is its heading and one
line for each entry, in order, that begins with the number of the entry. -/
theorem listings_tell (hi : i.catalogue = .standard) (hj : j.catalogue = .standard)
    (ri : i.calculator.Reachable) (rj : j.calculator.Reachable) :
    ((i.submit "hist").2 = (j.submit "hist").2 →
      List.Forall₂ Calculation.Alike i.calculator.history j.calculator.history) ∧
    ((i.submit "mhist").2 = (j.submit "mhist").2 →
      List.Forall₂ MemoryAccess.Alike i.calculator.memory.log j.calculator.memory.log) ∧
    (i.calculator.history ≠ [] → ∃ text, (i.submit "hist").2 = .ok (some { text }) ∧
      Text.linesOf text = "Operation history:" :: i.calculator.history.mapIdx fun k r =>
        toString (1 + k) ++ ". " ++ Display.calculation r) ∧
    (i.calculator.memory.log ≠ [] → ∃ text, (i.submit "mhist").2 = .ok (some { text }) ∧
      Text.linesOf text = "Memory history:" :: i.calculator.memory.log.mapIdx fun k a =>
        toString (1 + k) ++ ". " ++ Display.memoryAccess a) := by
  refine ⟨fun htext => ?_, fun htext => ?_, fun hne => ⟨_, submit_hist hi, ?_⟩,
    fun hne => ⟨_, submit_mhist hi, ?_⟩⟩
  · rw [submit_hist hi, submit_hist hj] at htext
    have hreply := Option.some.inj (Except.ok.inj htext)
    exact Calculator.history_alike ri rj (Reply.mk.inj hreply).1
  · rw [submit_mhist hi, submit_mhist hj] at htext
    have hreply := Option.some.inj (Except.ok.inj htext)
    exact Calculator.log_alike ri rj (Reply.mk.inj hreply).1
  · have hwords := Calculator.word_of_mem_history ri
    rw [Display.historyText_eq, ← Display.numberedFrom_eq_mapIdx]
    exact Display.linesOf_listing (by decide)
      (fun r hr => Display.newline_notMem_calculation (hwords r hr)) hne
  · rw [Display.memoryLogText_eq, ← Display.numberedFrom_eq_mapIdx]
    exact Display.linesOf_listing (by decide)
      (fun a _ => Display.newline_notMem_memoryAccess a) hne

/-- An interpreter after two computations and four uses of the memory, in which the number `zero` is
used. -/
def shownRun (time : Instant) (zero : Float) : Interpreter :=
  { calculator := Calculator.run { clock := .still time }
      [.compute (.binary .add 2 zero), .compute (.unary .cosine zero), .access (.store zero),
        .access (.add 5), .access .retrieve, .access .clear] }

theorem shownRun_alike :
    List.Forall₂ Calculation.Alike (shownRun ⟨0, 0⟩ 0).calculator.history
      (shownRun ⟨7, 0⟩ (-0)).calculator.history ∧
    List.Forall₂ MemoryAccess.Alike (shownRun ⟨0, 0⟩ 0).calculator.memory.log
      (shownRun ⟨7, 0⟩ (-0)).calculator.memory.log ∧
    ∃ text, ((shownRun ⟨0, 0⟩ 0).submit "mhist").2 = .ok (some { text }) ∧
      Text.linesOf text = ["Memory history:", "1. STORE: 0 -> Memory", "2. ADD: 0 + 5 = 5",
        "3. RECALL: Memory = 5", "4. CLEAR: 5 -> 0"] := by
  have ri : (shownRun ⟨0, 0⟩ 0).calculator.Reachable := .run (.fresh _) _
  have rj : (shownRun ⟨7, 0⟩ (-0)).calculator.Reachable := .run (.fresh _) _
  have h := listings_tell rfl rfl ri rj
  refine ⟨h.1 (by decide +kernel), h.2.1 (by decide +kernel), ?_⟩
  obtain ⟨text, htext, hlines⟩ := h.2.2.2 (by decide +kernel)
  exact ⟨text, htext, hlines.trans (by decide +kernel)⟩

end Interpreter

end DeskCalculator
