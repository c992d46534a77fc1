import DeskCalculator.Proofs.Arguments
import DeskCalculator.Proofs.Sessions

/-!
# DeskCalculator.Proofs.LineLayout — only the words of a line matter

A line is its words with white space between them, and perhaps around them.  How much white space
there is, and which characters it is made of, means nothing: the interpreter looks up the first
word, in lower case, and hands on the others as they are.

* `LaidOut`: the texts that some words can be laid out in.
* `words_eq_iff`: the words of a text are the words that it lays out.
* `Interpreter.submitTo`: the interpreter over commands that may do anything with their arguments.
* `Session.converse_returns`: carriage returns at the ends of lines make no difference.
* `layout_is_free`: lines that lay out the same words do the same, whatever the commands are.
-/

namespace DeskCalculator

namespace Text

/-- A text of white space only. -/
def Blank (cs : List Char) : Prop := ∀ c ∈ cs, isBlank c = true

instance (cs : List Char) : Decidable (Blank cs) := List.decidableBAll (isBlank · = true) cs

/-- `LaidOut ws cs`: the text `cs` has the words `ws` in this order, with some white space between
any two of them, and any white space, or none, in front of the first and behind the last. -/
inductive LaidOut : List (List Char) → List Char → Prop
  | nil {cs : List Char} (blank : Blank cs) : LaidOut [] cs
  /-- What comes behind a word, if anything does, starts with white space. -/
  | cons {before w after : List Char} {ws : List (List Char)} (blank : Blank before)
      (word : IsWord w) (apart : ∀ c ∈ after.head?, isBlank c = true) (others : LaidOut ws after) :
      LaidOut (w :: ws) (before ++ (w ++ after))

variable {c : Char} {cs gap : List Char} {ws : List (List Char)}

theorem words_blank_append (h : Blank gap) (cs : List Char) : words (gap ++ cs) = words cs := by
  induction gap with
  | nil => rfl
  | cons b gap ih =>
    have hb : isBlank b = true := h b List.mem_cons_self
    have hpieces : pieces (b :: (gap ++ cs)) = [] :: pieces (gap ++ cs) :=
      pieces_append_blank (w := []) nofun hb (gap ++ cs)
    rw [List.cons_append, ← ih fun c hc => h c (List.mem_cons_of_mem _ hc), words, hpieces,
      List.filter_cons_of_neg (by simp), words]

theorem words_blank (h : Blank gap) : words gap = [] := by
  simpa [words, pieces] using words_blank_append h []

theorem LaidOut.words_eq (h : LaidOut ws cs) : words cs = ws := by
  induction h with
  | nil blank => exact words_blank blank
  | @cons before w after ws blank word apart others ih =>
    rw [words_blank_append blank]
    cases after with
    | nil =>
      obtain rfl : [] = ws := ih
      rw [List.append_nil, words_of_isWord word]
    | cons b after =>
      have hb : isBlank b = true := apart b rfl
      have hsingle : Blank [b] := by simpa [Blank] using hb
      have hrest : words (b :: after) = words after := words_blank_append hsingle after
      rw [words_append_blank word hb, ← hrest, ih]

theorem LaidOut.blank_cons (hc : isBlank c = true) (h : LaidOut ws cs) : LaidOut ws (c :: cs) := by
  cases h with
  | nil blank => exact .nil (List.forall_mem_cons.mpr ⟨hc, blank⟩)
  | @cons before w after ws blank word apart others =>
    show LaidOut (w :: ws) (c :: before ++ (w ++ after))
    exact .cons (List.forall_mem_cons.mpr ⟨hc, blank⟩) word apart others

theorem LaidOut.append_blank (h : LaidOut ws cs) (hgap : Blank gap) : LaidOut ws (cs ++ gap) := by
  induction h with
  | nil blank => exact .nil (List.forall_mem_append.mpr ⟨blank, hgap⟩)
  | @cons before w after ws blank word apart others ih =>
    rw [List.append_assoc, List.append_assoc]
    refine .cons blank word ?_ ih
    cases after with
    | nil => exact fun c hc => hgap c (List.mem_of_mem_head? hc)
    | cons b after => exact apart

/-- A character that is not white space joins the word behind it, if there is one right there. -/
theorem LaidOut.exists_cons (hc : isBlank c = false) (h : LaidOut ws cs) :
    ∃ vs, LaidOut vs (c :: cs) := by
  have hsingle : Unspaced [c] := by simpa [Unspaced] using hc
  by_cases hnext : ∀ d ∈ cs.head?, isBlank d = true
  · have hword : LaidOut ([c] :: ws) ([] ++ ([c] ++ cs)) :=
      .cons nofun ⟨hsingle, List.cons_ne_nil _ _⟩ hnext h
    exact ⟨_, hword⟩
  · cases h with
    | nil blank => exact absurd (fun d hd => blank d (List.mem_of_mem_head? hd)) hnext
    | @cons before w after ws blank word apart others =>
      cases before with
      | nil =>
        have hw : Unspaced (c :: w) := List.forall_mem_cons.mpr ⟨hc, word.unspaced⟩
        have hword : LaidOut ((c :: w) :: ws) ([] ++ (c :: w ++ after)) :=
          .cons nofun ⟨hw, List.cons_ne_nil _ _⟩ apart others
        exact ⟨_, hword⟩
      | cons b before =>
        refine absurd (fun d hd => ?_) hnext
        obtain rfl : b = d := by simpa using hd
        exact blank b List.mem_cons_self

theorem exists_laidOut (cs : List Char) : ∃ ws, LaidOut ws cs := by
  induction cs with
  | nil => exact ⟨[], .nil nofun⟩
  | cons c cs ih =>
    obtain ⟨ws, h⟩ := ih
    cases hc : isBlank c with
    | true => exact ⟨ws, h.blank_cons hc⟩
    | false => exact h.exists_cons hc

/-- The words of a text are the words that it lays out. -/
theorem words_eq_iff : words cs = ws ↔ LaidOut ws cs := by
  constructor
  · rintro rfl
    obtain ⟨ws, h⟩ := exists_laidOut cs
    rw [h.words_eq]
    exact h
  · exact LaidOut.words_eq

end Text

variable {line first : String} {rest : List String}

theorem Text.LaidOut.isWord {ws : List (List Char)} {cs : List Char} (h : LaidOut ws cs) :
    ∀ w ∈ ws, IsWord w := by
  induction h with
  | nil => exact nofun
  | cons blank word apart others ih => exact List.forall_mem_cons.mpr ⟨word, ih⟩

theorem splitLine_of_laidOut (h : Text.LaidOut ((first :: rest).map String.toList) line.toList) :
    splitLine line = some (.ofList (Text.lowercase first.toList), rest) := by
  unfold splitLine
  rw [h.words_eq]
  simp

theorem splitLine_of_blank (h : Text.Blank line.toList) : splitLine line = none := by
  unfold splitLine
  rw [Text.words_blank h]

theorem splitLine_append_blank {gap : String} (h : Text.Blank gap.toList) (line : String) :
    splitLine (line ++ gap) = splitLine line := by
  have hwords : Text.LaidOut (Text.words line.toList) line.toList := Text.words_eq_iff.mp rfl
  unfold splitLine
  rw [String.toList_append, (hwords.append_blank h).words_eq]

/-! ## Commands of any kind -/

/-- A command that may do anything with its arguments and the calculator. -/
structure Handler where
  /-- The number of arguments. -/
  arity : Nat
  usage : String
  perform : Arguments → Calculator → Calculator × Except Fault Reply

/-- Carries out such a command, once the number of its arguments has been checked. -/
def Handler.invoke (handler : Handler) (a : Arguments) (c : Calculator) :
    Calculator × Except Fault Reply :=
  if a.words.length ≠ handler.arity then (c, .error (.wrongUsage handler.usage))
  else handler.perform a c

variable {α : Type} [Handling α]

/-- A command of a catalogue as such a command. -/
def Catalogue.handler (k : Catalogue α) (command : Command α) : Handler where
  arity := command.arity
  usage := command.usage
  perform := Handling.perform command.action k

theorem Catalogue.invoke_eq_handler (k : Catalogue α) (command : Command α) (a : Arguments)
    (c : Calculator) : k.invoke command a c = (k.handler command).invoke a c := rfl

namespace Interpreter

/-- Carries out the command of a name with some arguments, as a table of commands has it. -/
def callFrom (i : Interpreter α) (table : String → Option Handler) (name : String)
    (words : List String) : Interpreter α × Except Fault (Option Reply) :=
  match table name with
  | none => (i, .error (.unknownCommand name))
  | some handler => i.answer (handler.invoke ⟨words, i.strictness⟩ i.calculator)

/-- Carries out a line with the commands of a table. -/
def submitTo (i : Interpreter α) (table : String → Option Handler) (line : String) :
    Interpreter α × Except Fault (Option Reply) :=
  match splitLine line with
  | none => (i, .ok none)
  | some (name, words) => i.callFrom table name words

/-- The table of the commands of the catalogue. -/
def table (i : Interpreter α) (name : String) : Option Handler :=
  (i.catalogue.find? name).map i.catalogue.handler

/-- The interpreter carries out a line with the commands of its catalogue. -/
theorem submit_eq_submitTo (i : Interpreter α) (line : String) :
    i.submit line = i.submitTo i.table line := by
  unfold submit submitTo
  cases hline : splitLine line with
  | none => rfl
  | some call =>
    obtain ⟨name, words⟩ := call
    show _ = i.callFrom i.table name words
    cases hname : i.catalogue.find? name with
    | none => simp only [callFrom, table, hname, Option.map_none]
    | some command =>
      simp only [callFrom, table, hname, Option.map_some, Catalogue.invoke_eq_handler]

end Interpreter

/-! ## Lines and sessions -/

namespace Session

variable {gap : String}

/-- White space behind a line changes nothing. -/
theorem processLine_append_blank (h : Text.Blank gap.toList) (s : Session) (line : String) :
    s.processLine (line ++ gap) = s.processLine line := by
  unfold processLine Interpreter.submit
  rw [splitLine_append_blank h]

theorem processLines_append_blank (h : Text.Blank gap.toList) (s : Session)
    (lines : List String) : s.processLines (lines.map (· ++ gap)) = s.processLines lines := by
  induction lines generalizing s with
  | nil => rfl
  | cons line lines ih =>
    by_cases hs : s.running = true
    · rw [List.map_cons, processLines_cons_of_running hs, processLines_cons_of_running hs,
        processLine_append_blank h, ih]
    · have hstopped : s.running = false := by simpa using hs
      rw [processLines_of_stopped hstopped, processLines_of_stopped hstopped]

end Session

theorem blank_carriageReturn : Text.Blank "\r".toList := by
  intro c hc
  obtain rfl : c = '\r' := by simpa using hc
  rfl

/-! ## Carriage returns in a byte stream -/

namespace Text

theorem toByteArray_append_return (bytes : List UInt8) :
    (⟨(bytes ++ [13]).toArray⟩ : ByteArray) = ⟨bytes.toArray⟩ ++ "\r".toByteArray := by
  have hreturn : "\r".toByteArray = ⟨#[13]⟩ := rfl
  rw [hreturn]
  ext1
  simp

theorem isValidUTF8_of_append_return {a : ByteArray} (h : (a ++ "\r".toByteArray).IsValidUTF8) :
    a.IsValidUTF8 := by
  have hend : (⟨a.size⟩ : String.Pos.Raw) < (String.ofByteArray _ h).rawEndPos := by
    show a.size < (a ++ "\r".toByteArray).size
    rw [ByteArray.size_append]
    exact Nat.lt_add_of_pos_right (by decide)
  have hbyte : (String.ofByteArray _ h).getUTF8Byte ⟨a.size⟩ hend = 13 := by
    refine (ByteArray.getElem_append_right (a := a) (b := "\r".toByteArray)
      (Nat.le_refl a.size)).trans ?_
    simp only [Nat.sub_self]
    rfl
  have hplace : String.Pos.Raw.IsValid (.ofByteArray _ h) ⟨a.size⟩ := by
    refine String.Pos.Raw.isValid_iff_isUTF8FirstByte.mpr (.inr ⟨hend, ?_⟩)
    rw [hbyte]
    exact .inl rfl
  have hstart := (String.Pos.Raw.isValid_iff_isValidUTF8_extract_zero.mp hplace).2
  have hfront : (a ++ "\r".toByteArray).extract 0 a.size = a := ByteArray.extract_append_eq_left rfl
  exact hfront ▸ hstart

theorem decode?_append_return (bytes : List UInt8) :
    decode? (bytes ++ [13]) = (decode? bytes).map (· ++ "\r") := by
  unfold decode?
  rw [toByteArray_append_return]
  generalize (⟨bytes.toArray⟩ : ByteArray) = a
  unfold String.fromUTF8?
  by_cases h : a.IsValidUTF8
  · rw [dif_pos h, dif_pos (h.append "\r".isValidUTF8)]
    refine congrArg some (String.toByteArray_inj.mp ?_)
    rw [String.toByteArray_append]
    rfl
  · rw [dif_neg h, dif_neg fun hlonger => h (isValidUTF8_of_append_return hlonger)]
    rfl

/-- A byte stream with a carriage return put in front of each line feed. -/
def withReturns (bytes : List UInt8) : List UInt8 :=
  bytes.flatMap fun b => if b = 10 then [13, 10] else [b]

/-- The second line is the first one, perhaps with a carriage return behind it. -/
def SameButReturn (line line' : List UInt8) : Prop := line' = line ∨ line' = line ++ [13]

theorem lineOfReverse_return (start : List UInt8) :
    SameButReturn (lineOfReverse start) (lineOfReverse (13 :: start)) := by
  show SameButReturn (lineOfReverse start) start.reverse
  unfold lineOfReverse
  split
  · exact .inr List.reverse_cons
  · exact .inl rfl

/-- The carriage return in front of a line feed is not part of the line, but it lets one through
that stood there before. -/
theorem linesFrom_withReturns (start bytes : List UInt8) :
    List.Forall₂ SameButReturn (linesFrom start bytes) (linesFrom start (withReturns bytes)) := by
  induction bytes generalizing start with
  | nil => exact List.forall₂_same.mpr fun _ _ => .inl rfl
  | cons b bytes ih =>
    by_cases hb : b = 10
    · subst hb
      have hstream : withReturns (10 :: bytes) = 13 :: 10 :: withReturns bytes := rfl
      rw [hstream]
      exact .cons (lineOfReverse_return start) (ih [])
    · have hstream : withReturns (b :: bytes) = b :: withReturns bytes := by
        simp [withReturns, hb]
      rw [hstream, linesFrom, linesFrom, if_neg hb, if_neg hb]
      exact ih (b :: start)

theorem SameButReturn.decode? {bytes bytes' : List UInt8} (h : SameButReturn bytes bytes') :
    decode? bytes' = decode? bytes ∨ decode? bytes' = (decode? bytes).map (· ++ "\r") := by
  rcases h with rfl | rfl
  · exact .inl rfl
  · exact .inr (decode?_append_return bytes)

end Text

namespace Session

/-- With a carriage return behind it a line is still text, and does the same. -/
theorem processLine_return {bytes bytes' : List UInt8} {line : String}
    (h : Text.SameButReturn bytes bytes') (hline : Text.decode? bytes = some line) (s : Session) :
    ∃ line', Text.decode? bytes' = some line' ∧ s.processLine line' = s.processLine line := by
  rcases h.decode? with h | h
  · exact ⟨line, h.trans hline, rfl⟩
  · refine ⟨line ++ "\r", ?_, s.processLine_append_blank blank_carriageReturn line⟩
    rw [h, hline]
    rfl

/-- Where lines are not shown again, only the reply is shown. -/
theorem shown_of_silent {config : Config} (h : config.echo = false) (line line' : String)
    (reply : Option String) : shown config (line', reply) = shown config (line, reply) := by
  simp [shown, h]

/-- Lines that are the same but for carriage returns leave the same session, in the same way, and
unless the lines are shown again they also show the same. -/
theorem converse_returns {ls ls' : List (List UInt8)} (h : List.Forall₂ Text.SameButReturn ls ls')
    (s : Session) :
    (s.converse ls').session = (s.converse ls).session ∧
      (s.converse ls').ending = (s.converse ls).ending ∧
      (s.config.echo = false → (s.converse ls').output = (s.converse ls).output) := by
  induction h generalizing s with
  | nil => exact ⟨rfl, rfl, fun _ => rfl⟩
  | @cons bytes bytes' ls ls' hbytes _ ih =>
    by_cases hs : s.running = true
    · cases hline : Text.decode? bytes with
      | none =>
        have hline' : Text.decode? bytes' = none := by
          rcases hbytes.decode? with h | h <;> simp [h, hline]
        simp [converse, hs, hline, hline']
      | some line =>
        obtain ⟨line', hline', hsame⟩ := processLine_return hbytes hline s
        obtain ⟨hsession, hending, houtput⟩ := ih (s.processLine line).1
        rw [converse_cons_of_running hs hline, converse_cons_of_running hs hline', hsame]
        refine ⟨hsession, hending, fun hecho => ?_⟩
        have hrest := houtput (by rw [processLine_config]; exact hecho)
        show shown _ _ ++ _ = shown _ _ ++ _
        rw [shown_of_silent hecho line line', hrest]
    · simp [converse, hs]

theorem run_withReturns (s : Session) (input : List UInt8) :
    (s.run (Text.withReturns input)).session = (s.run input).session ∧
      (s.run (Text.withReturns input)).ending = (s.run input).ending ∧
      (s.config.echo = false →
        (s.run (Text.withReturns input)).output = (s.run input).output) := by
  obtain ⟨hsession, hending, houtput⟩ :=
    converse_returns (Text.linesFrom_withReturns [] input) s.start
  refine ⟨hsession, hending, fun hecho => ?_⟩
  have hrest := houtput (by rw [start_config]; exact hecho)
  show banner ++ _ = banner ++ _
  exact congrArg (banner ++ ·) hrest

end Session

/-- **The layout of a line does not matter.**  Whatever the commands of the table do, a line calls
the command that has its first word, in lower case, for a name, with its other words as they are and
in order, so that it does what these words do with single spaces between them.  The same goes for
the commands of the catalogue.  A line of white space changes nothing and gets no reply.  A carriage
return at the end of a line, or of each line of a script, or in front of each line feed of a byte
stream, makes no difference to the session, and to what is shown only where lines are shown
again. -/
theorem layout_is_free (i : Interpreter α) (table : String → Option Handler) (s : Session) :
    (∀ (line first : String) (rest : List String),
      Text.LaidOut ((first :: rest).map String.toList) line.toList →
      i.submitTo table line = i.callFrom table (.ofList (Text.lowercase first.toList)) rest ∧
      i.submitTo table line = i.submitTo table (" ".intercalate (first :: rest)) ∧
      i.submit line = i.callFrom i.table (.ofList (Text.lowercase first.toList)) rest ∧
      i.submit line = i.submit (" ".intercalate (first :: rest))) ∧
    (∀ line : String, Text.Blank line.toList →
      i.submitTo table line = (i, .ok none) ∧ i.submit line = (i, .ok none)) ∧
    (∀ line, s.processLine (line ++ "\r") = s.processLine line) ∧
    (∀ lines : List String, s.runScript (lines.map (· ++ "\r")) = s.runScript lines) ∧
    ∀ input : List UInt8,
      (s.run (Text.withReturns input)).session = (s.run input).session ∧
      (s.run (Text.withReturns input)).ending = (s.run input).ending ∧
      (s.config.echo = false →
        (s.run (Text.withReturns input)).output = (s.run input).output) := by
  refine ⟨?_, ?_, s.processLine_append_blank blank_carriageReturn,
    s.start.processLines_append_blank blank_carriageReturn, s.run_withReturns⟩
  · intro line first rest h
    have hline := splitLine_of_laidOut h
    have hplain : splitLine line = splitLine (" ".intercalate (first :: rest)) := by
      rw [hline, splitLine_intercalate fun w hw => h.isWord w.toList (List.mem_map_of_mem hw)]
    have hcall : ∀ table, i.submitTo table line =
        i.callFrom table (.ofList (Text.lowercase first.toList)) rest := by
      intro table
      rw [Interpreter.submitTo, hline]
    refine ⟨hcall table, ?_, ?_, ?_⟩
    · rw [Interpreter.submitTo, hplain, Interpreter.submitTo]
    · rw [Interpreter.submit_eq_submitTo, hcall]
    · rw [Interpreter.submit, hplain, Interpreter.submit]
  · intro line h
    have hline := splitLine_of_blank h
    constructor
    · rw [Interpreter.submitTo, hline]
    · rw [Interpreter.submit, hline]

/-- White space of several kinds, and a carriage return at the end. -/
theorem layout_is_free_spread :
    let i : Interpreter := { calculator := { clock := .still ⟨0, 0⟩ } }
    let line := "\u00a0ADD\t 2\u3000\u20283\r"
    let blank := "\u0085\u2003\x0b"
    Text.LaidOut (["ADD", "2", "3"].map String.toList) line.toList ∧
      i.submit line = i.submit "ADD 2 3" ∧ (i.submit line).1.calculator.lastResult = 5 ∧
      Text.Blank blank.toList ∧ i.submit blank = (i, .ok none) := by
  intro i line blank
  have hwords : Text.LaidOut (["ADD", "2", "3"].map String.toList) line.toList :=
    Text.words_eq_iff.mp (by decide)
  have hblank : Text.Blank blank.toList := by decide
  have hfree := layout_is_free i i.table Session.freshSession
  have hplain : " ".intercalate ["ADD", "2", "3"] = "ADD 2 3" := rfl
  obtain ⟨-, -, -, hline⟩ := hfree.1 line "ADD" ["2", "3"] hwords
  exact ⟨hwords, hplain ▸ hline, by decide +kernel, hblank, (hfree.2.1 blank hblank).2⟩

end DeskCalculator
