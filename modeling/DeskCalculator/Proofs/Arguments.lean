import Mathlib.Data.List.Forall2
import DeskCalculator.Proofs.Commands
import DeskCalculator.Proofs.Numerals

/-!
# DeskCalculator.Proofs.Arguments — what the arguments of a command have to be

Each argument of a standard command is taken for a number, for an integer of 64 bits, or for a word
that is no number.  A word that is what it is taken for as a whole means the same to strict and to
lenient reading; of the other words, strict reading refuses the leftmost.

* `ArgumentKind.Accepts`: the words that are what they are taken for, told from the way numbers are
  written.
* `Misread`: the leftmost word that is not what it is taken for.
* `Action.read_of_accepts`, `Action.read_of_misread`: what is made of the arguments in each case.
-/

namespace DeskCalculator

/-! ## Words -/

namespace Text

/-- A text without white space. -/
def Unspaced (cs : List Char) : Prop := ∀ c ∈ cs, isBlank c = false

theorem pieces_ne_nil (cs : List Char) : pieces cs ≠ [] := by
  cases cs with
  | nil => exact List.cons_ne_nil _ _
  | cons c cs =>
    unfold pieces
    split
    · exact List.cons_ne_nil _ _
    · split <;> exact List.cons_ne_nil _ _

theorem unspaced_of_mem_pieces {cs w : List Char} (hw : w ∈ pieces cs) : Unspaced w := by
  induction cs generalizing w with
  | nil =>
    obtain rfl : w = [] := by simpa [pieces] using hw
    exact nofun
  | cons d cs ih =>
    obtain ⟨v, vs, hpieces⟩ := List.exists_cons_of_ne_nil (pieces_ne_nil cs)
    rw [hpieces] at ih
    unfold pieces at hw
    simp only [hpieces] at hw
    split at hw
    · rcases List.mem_cons.mp hw with rfl | hw
      · exact nofun
      · exact ih hw
    · next hd =>
      rcases List.mem_cons.mp hw with rfl | hw
      · intro c hc
        rcases List.mem_cons.mp hc with rfl | hc
        · simpa using hd
        · exact ih List.mem_cons_self c hc
      · exact ih (List.mem_cons_of_mem _ hw)

variable {cs : List Char}

theorem trimStart_of_unspaced (h : Unspaced cs) : trimStart cs = cs := by
  cases cs with
  | nil => rfl
  | cons c cs =>
    have hc := h c List.mem_cons_self
    exact List.dropWhile_cons_of_neg (by simp [hc])

theorem trim_of_unspaced (h : Unspaced cs) : trim cs = cs := by
  have hreverse : Unspaced cs.reverse := fun c hc => h c (List.mem_reverse.mp hc)
  rw [trim, trimStart_of_unspaced h, trimStart_of_unspaced hreverse, List.reverse_reverse]

/-! Words with white space between them are told apart again. -/

theorem pieces_cons (c : Char) (cs : List Char) : ∃ w ws, pieces cs = w :: ws ∧
    pieces (c :: cs) = if isBlank c then [] :: w :: ws else (c :: w) :: ws := by
  obtain ⟨w, ws, h⟩ := List.exists_cons_of_ne_nil (pieces_ne_nil cs)
  exact ⟨w, ws, h, by simp only [pieces, h]⟩

theorem pieces_append_blank {w : List Char} (hw : Unspaced w) {b : Char} (hb : isBlank b = true)
    (cs : List Char) : pieces (w ++ b :: cs) = w :: pieces cs := by
  induction w with
  | nil =>
    obtain ⟨v, vs, hcs, hcons⟩ := pieces_cons b cs
    rw [List.nil_append, hcons, if_pos hb, hcs]
  | cons c w ih =>
    obtain ⟨v, vs, hrest, hcons⟩ := pieces_cons c (w ++ b :: cs)
    rw [ih fun d hd => hw d (List.mem_cons_of_mem _ hd)] at hrest
    have hc : ¬ isBlank c = true := by simpa using hw c List.mem_cons_self
    obtain ⟨rfl, rfl⟩ := List.cons_eq_cons.mp hrest
    rw [List.cons_append, hcons, if_neg hc]

theorem pieces_unspaced {w : List Char} (hw : Unspaced w) : pieces w = [w] := by
  induction w with
  | nil => rfl
  | cons c w ih =>
    obtain ⟨v, vs, hrest, hcons⟩ := pieces_cons c w
    rw [ih fun d hd => hw d (List.mem_cons_of_mem _ hd)] at hrest
    have hc : ¬ isBlank c = true := by simpa using hw c List.mem_cons_self
    obtain ⟨rfl, rfl⟩ := List.cons_eq_cons.mp hrest
    rw [hcons, if_neg hc]

/-- A text that is a word: without white space, and not empty. -/
structure IsWord (w : List Char) : Prop where
  unspaced : Unspaced w
  ne_nil : w ≠ []

theorem words_append_blank {w : List Char} (hw : IsWord w) {b : Char} (hb : isBlank b = true)
    (cs : List Char) : words (w ++ b :: cs) = w :: words cs := by
  rw [words, pieces_append_blank hw.unspaced hb, List.filter_cons_of_pos (by simp [hw.ne_nil]),
    words]

theorem words_of_isWord {w : List Char} (hw : IsWord w) : words w = [w] := by
  rw [words, pieces_unspaced hw.unspaced, List.filter_cons_of_pos (by simp [hw.ne_nil]),
    List.filter_nil]

end Text

/-- Words with a space between them are the words of the line that they make. -/
theorem words_intercalate {ws : List String} (h : ∀ w ∈ ws, Text.IsWord w.toList) :
    Text.words (" ".intercalate ws).toList = ws.map String.toList := by
  induction ws with
  | nil => rfl
  | cons w ws ih =>
    have hw := h w List.mem_cons_self
    cases ws with
    | nil => simpa using Text.words_of_isWord hw
    | cons v ws =>
      have hline : (" ".intercalate (w :: v :: ws)).toList =
          w.toList ++ ' ' :: (" ".intercalate (v :: ws)).toList := by
        simp [String.intercalate_cons_cons]
      rw [hline, Text.words_append_blank hw rfl, ih fun u hu => h u (List.mem_cons_of_mem _ hu)]
      rfl

theorem splitLine_intercalate {name : String} {ws : List String}
    (h : ∀ w ∈ name :: ws, Text.IsWord w.toList) :
    splitLine (" ".intercalate (name :: ws)) =
      some (.ofList (Text.lowercase name.toList), ws) := by
  unfold splitLine
  rw [words_intercalate h]
  simp

/-- The arguments of a line are words, without white space. -/
theorem splitLine_unspaced {line name : String} {words : List String}
    (h : splitLine line = some (name, words)) : ∀ word ∈ words, Text.Unspaced word.toList := by
  unfold splitLine at h
  split at h
  · cases h
  · next first others hwords =>
    cases h
    intro word hword
    obtain ⟨w, hw, rfl⟩ := List.mem_map.mp hword
    have hmem : w ∈ Text.words line.toList := by
      rw [hwords]
      exact List.mem_cons_of_mem _ hw
    rw [String.toList_ofList]
    exact Text.unspaced_of_mem_pieces (List.mem_filter.mp hmem).1

/-! ## Arguments -/

/-- What an argument is taken for. -/
inductive ArgumentKind
  | number
  /-- An integer of 64 bits. -/
  | integer
  /-- A word that is no number. -/
  | word
deriving DecidableEq

/-- The arguments of the standard command of a name, from the left. -/
def argumentKinds (name : String) : List ArgumentKind :=
  if name ∈ ["add", "sub", "mul", "div", "mod", "pow", "logb"] then [.number, .number]
  else if name ∈ ["sqrt", "cbrt", "fact", "sin", "cos", "tan", "asin", "acos", "atan", "log", "ln",
    "ms", "m+", "m-", "c+", "c-", "c*", "c/"] then [.number]
  else if name = "prec" then [.integer]
  else if name = "mode" then [.word]
  else []

/-- Whether a word is, as a whole, what an argument is taken for: the text of a numeral, or that of
an integer. -/
def ArgumentKind.Accepts : ArgumentKind → String → Prop
  | number, token => ∃ n : Numeral, n.WellFormed ∧ n.chars = token.toList
  | integer, token => ∃ n, SpellsInteger token.toList n
  | word, _ => True

/-- `Misread kinds words token`: of the words, `token` is the leftmost that is not what it is taken
for. -/
inductive Misread : List ArgumentKind → List String → String → Prop
  | here {kind : ArgumentKind} {kinds : List ArgumentKind} {word : String} {words : List String}
      (refused : ¬ kind.Accepts word) : Misread (kind :: kinds) (word :: words) word
  | behind {kind : ArgumentKind} {kinds : List ArgumentKind} {word token : String}
      {words : List String} (accepted : kind.Accepts word) (later : Misread kinds words token) :
      Misread (kind :: kinds) (word :: words) token

/-- The arguments that an action reads. -/
def Action.arguments : Action → List ArgumentKind
  | unary _ | chain _ | memoryStore | memoryAdd | memorySubtract => [.number]
  | binary _ => [.number, .number]
  | setAngleUnit => [.word]
  | setPrecision => [.integer]
  | fixed _ => []

theorem standard_arguments : ∀ command ∈ Command.standard,
    argumentKinds command.name = command.action.arguments ∧
      command.arity = command.action.arguments.length := by
  decide

/-- The words are all what they are taken for, or one of them is the leftmost that is not. -/
theorem accepted_or_misread {kinds : List ArgumentKind} {words : List String}
    (h : words.length = kinds.length) :
    List.Forall₂ ArgumentKind.Accepts kinds words ∨ ∃ token, Misread kinds words token := by
  induction kinds generalizing words with
  | nil =>
    obtain rfl := List.eq_nil_of_length_eq_zero h
    exact .inl .nil
  | cons kind kinds ih =>
    obtain ⟨word, words, rfl⟩ := List.exists_cons_of_length_eq_add_one h
    by_cases accepted : kind.Accepts word
    · rcases ih (Nat.succ.inj h) with hall | ⟨token, later⟩
      · exact .inl (.cons accepted hall)
      · exact .inr ⟨token, .behind accepted later⟩
    · exact .inr ⟨word, .here accepted⟩

theorem Misread.exists_refused {kinds : List ArgumentKind} {words : List String} {token : String}
    (h : Misread kinds words token) : ∃ p ∈ kinds.zip words, ¬ p.1.Accepts p.2 := by
  induction h with
  | here refused => exact ⟨_, List.mem_cons_self, refused⟩
  | behind accepted later ih =>
    obtain ⟨p, hp, refused⟩ := ih
    exact ⟨p, List.mem_cons_of_mem _ hp, refused⟩

/-! ## Reading the arguments -/

namespace Strictness

variable {word : String}

/-- The text of a numeral is read as what it says, by both. -/
theorem number_written {n : Numeral} (hn : n.WellFormed) (hchars : n.chars = word.toList)
    (hword : Text.Unspaced word.toList) :
    leadingNumber word = n.value ∧ ∀ s : Strictness, s.number word = .ok n.value := by
  have hscan := Numeral.scan_eq_whole.mpr ⟨hn, hchars⟩
  have hleading : leadingNumber word = n.value := by
    simp [leadingNumber, Text.trimStart_of_unspaced hword, hscan]
  refine ⟨hleading, fun s => ?_⟩
  cases s with
  | lenient => exact congrArg Except.ok hleading
  | strict => simp [number, wholeNumber?, Text.trim_of_unspaced hword, hscan]

/-- A word that is a number as a whole is the same number to both. -/
theorem number_of_accepts (hword : Text.Unspaced word.toList)
    (h : ArgumentKind.number.Accepts word) : ∃ x, ∀ s : Strictness, s.number word = .ok x := by
  obtain ⟨n, hn, hchars⟩ := h
  exact ⟨n.value, (number_written hn hchars hword).2⟩

theorem strict_number_of_not_accepts (hword : Text.Unspaced word.toList)
    (h : ¬ ArgumentKind.number.Accepts word) : strict.number word = .error (.notNumeric word) := by
  have hwhole : wholeNumber? word = none := by
    unfold wholeNumber?
    rw [Text.trim_of_unspaced hword]
    split
    · next n hscan => exact absurd ⟨n, Numeral.scan_eq_whole.mp hscan⟩ h
    · rfl
  simp [number, hwhole]

/-- A word that is an integer as a whole is the same integer to both. -/
theorem integer_of_accepts (hword : Text.Unspaced word.toList)
    (h : ArgumentKind.integer.Accepts word) (missing : String → Fault) :
    ∃ n, ∀ s : Strictness, s.integer missing word = .ok n := by
  obtain ⟨n, hn⟩ := h
  have hscan := scanInteger_eq_whole.mpr hn
  refine ⟨n, fun s => ?_⟩
  cases s with
  | lenient => simp [integer, leadingInteger?, Text.trimStart_of_unspaced hword, hscan]
  | strict => simp [integer, wholeInteger?, Text.trim_of_unspaced hword, hscan]

theorem strict_integer_of_not_accepts (hword : Text.Unspaced word.toList)
    (h : ¬ ArgumentKind.integer.Accepts word) (missing : String → Fault) :
    strict.integer missing word = .error (.notNumeric word) := by
  have hwhole : wholeInteger? word = none := by
    unfold wholeInteger?
    rw [Text.trim_of_unspaced hword]
    split
    · next n hscan => exact absurd ⟨n, scanInteger_eq_whole.mp hscan⟩ h
    · rfl
  simp [integer, hwhole]

end Strictness

section

variable {ε α β : Type} {step : Except ε α}

theorem bind_of_ok {a : α} (h : step = .ok a) (next : α → Except ε β) : step >>= next = next a := by
  rw [h]
  rfl

theorem bind_of_error {e : ε} (h : step = .error e) (next : α → Except ε β) :
    step >>= next = .error e := by
  rw [h]
  rfl

end

namespace Action

variable {action : Action} {words : List String}

theorem read_of_accepts (hwords : ∀ word ∈ words, Text.Unspaced word.toList)
    (h : List.Forall₂ ArgumentKind.Accepts action.arguments words) :
    ∃ i, ∀ s, action.read ⟨words, s⟩ = .ok i := by
  cases action with
  | binary f =>
    obtain ⟨first, others, hfirst, hothers, rfl⟩ := List.forall₂_cons_left_iff.mp h
    obtain ⟨second, others, hsecond, -, rfl⟩ := List.forall₂_cons_left_iff.mp hothers
    obtain ⟨x, hx⟩ := Strictness.number_of_accepts (hwords first (by simp)) hfirst
    obtain ⟨y, hy⟩ := Strictness.number_of_accepts (hwords second (by simp)) hsecond
    exact ⟨_, fun s => read_binary.mpr ⟨x, hx s, y, hy s, rfl⟩⟩
  | setAngleUnit => exact ⟨.setAngleUnit (words[0]?.getD ""), fun _ => rfl⟩
  | fixed i => exact ⟨i, fun _ => rfl⟩
  | setPrecision =>
    obtain ⟨word, others, hword, -, rfl⟩ := List.forall₂_cons_left_iff.mp h
    obtain ⟨n, hn⟩ :=
      Strictness.integer_of_accepts (hwords word List.mem_cons_self) hword .badPrecision
    exact ⟨_, fun s => bind_eq_ok.mpr ⟨n, hn s, rfl⟩⟩
  | unary _ | chain _ | memoryStore | memoryAdd | memorySubtract =>
    obtain ⟨word, others, hword, -, rfl⟩ := List.forall₂_cons_left_iff.mp h
    obtain ⟨x, hx⟩ := Strictness.number_of_accepts (hwords word List.mem_cons_self) hword
    exact ⟨_, fun s => bind_eq_ok.mpr ⟨x, hx s, rfl⟩⟩

/-- Strict reading refuses the leftmost argument that is not what it is taken for. -/
theorem read_of_misread {token : String} (hwords : ∀ word ∈ words, Text.Unspaced word.toList)
    (h : Misread action.arguments words token) :
    action.read ⟨words, .strict⟩ = .error (.notNumeric token) := by
  cases action with
  | binary f =>
    cases h with
    | here refused =>
      have hfirst :=
        Strictness.strict_number_of_not_accepts (hwords token List.mem_cons_self) refused
      exact bind_of_error hfirst _
    | @behind _ _ first _ _ accepted later =>
      obtain ⟨x, hx⟩ := Strictness.number_of_accepts (hwords first List.mem_cons_self) accepted
      cases later with
      | here refused =>
        have hsecond := Strictness.strict_number_of_not_accepts (hwords token (by simp)) refused
        exact (bind_of_ok (hx .strict) _).trans (bind_of_error hsecond _)
      | behind accepted later => cases later
  | setAngleUnit =>
    cases h with
    | here refused => exact absurd trivial refused
    | behind accepted later => cases later
  | fixed i => cases h
  | setPrecision =>
    cases h with
    | here refused =>
      have hword := Strictness.strict_integer_of_not_accepts (hwords token List.mem_cons_self)
        refused .badPrecision
      exact bind_of_error hword _
    | behind accepted later => cases later
  | unary _ | chain _ | memoryStore | memoryAdd | memorySubtract =>
    cases h with
    | here refused =>
      have hword :=
        Strictness.strict_number_of_not_accepts (hwords token List.mem_cons_self) refused
      exact bind_of_error hword _
    | behind accepted later => cases later

end Action

end DeskCalculator
