import DeskCalculator.Proofs.History
import DeskCalculator.Proofs.Ledger
import DeskCalculator.Proofs.Listings
import DeskCalculator.Proofs.Replies

/-!
# DeskCalculator.Proofs.Announcements — a reply tells of the entry that was made

What is shown to the user and what is kept for later are put together apart from each other: the
reply from the operation, its operands and its result, the entry by the calculator.  They agree: the
reply can be written down again from the entry alone.

* `Instruction.compute_told`, `Instruction.chain_told`, `Instruction.memory_told`: one instruction.
* `Interpreter.reply_tells`: the lines of the user.
-/

namespace DeskCalculator

/-! ## The commands and what their replies look like -/

/-- The commands that carry out an operation on the numbers behind them. -/
def operationNames : List String :=
  ["add", "sub", "mul", "div", "mod", "pow", "sqrt", "cbrt", "fact", "sin", "cos", "tan", "asin",
    "acos", "atan", "log", "ln", "logb"]

/-- The chain commands, each with the sign in its reply and the tag of its entry. -/
def chainSigns : List (String × String × String) :=
  [("c+", "+", "add"), ("c-", "-", "subtract"), ("c*", "*", "multiply"), ("c/", "/", "divide")]

/-- The commands that answer with what the register then holds, each with the use of the register
that it makes and the words before the number. -/
def registerWords : List (String × MemoryAction × String) :=
  [("ms", .store, "Memory store: "), ("mr", .retrieve, "Memory recall: "),
    ("m+", .add, "Memory add: "), ("m-", .subtract, "Memory subtract: ")]

namespace Action

/-- Whether an action carries out an operation on the numbers that are typed. -/
def isOperation : Action → Bool
  | unary _ | binary _ => true
  | chain _ | memoryStore | memoryAdd | memorySubtract | setAngleUnit | setPrecision | fixed _ =>
    false

/-- The sign and the tag of an action that goes on from the last result. -/
def chainSign? : Action → Option (String × String)
  | chain op => some (op.symbol, op.operation.tag)
  | unary _ | binary _ | memoryStore | memoryAdd | memorySubtract | setAngleUnit | setPrecision
  | fixed _ => none

/-- The use of the register that an action makes. -/
def memoryAction? : Action → Option MemoryAction
  | memoryStore => some .store
  | memoryAdd => some .add
  | memorySubtract => some .subtract
  | fixed (.memory request) => some request.action
  | unary _ | binary _ | chain _ | setAngleUnit | setPrecision | fixed _ => none

variable {action : Action} {a : Arguments} {i : Instruction}

theorem exists_compute_of_read (h : action.isOperation) (hread : action.read a = .ok i) :
    ∃ x, i = .compute x := by
  cases action with
  | unary f =>
    obtain ⟨x, -, rfl⟩ := read_unary.mp hread
    exact ⟨_, rfl⟩
  | binary f =>
    obtain ⟨x, -, y, -, rfl⟩ := read_binary.mp hread
    exact ⟨_, rfl⟩
  | chain _ | memoryStore | memoryAdd | memorySubtract | setAngleUnit | setPrecision | fixed _ =>
    cases h

theorem exists_chain_of_read {sign : String × String} (h : action.chainSign? = some sign)
    (hread : action.read a = .ok i) :
    ∃ op b, i = .chain op b ∧ sign = (op.symbol, op.operation.tag) := by
  cases action with
  | chain op =>
    obtain ⟨b, -, rfl⟩ := read_chain.mp hread
    cases h
    exact ⟨op, b, rfl, rfl⟩
  | unary _ | binary _ | memoryStore | memoryAdd | memorySubtract | setAngleUnit | setPrecision
  | fixed _ => cases h

theorem exists_memory_of_read {k : MemoryAction} (h : action.memoryAction? = some k)
    (hread : action.read a = .ok i) : ∃ request, i = .memory request ∧ request.action = k := by
  cases action with
  | memoryStore | memoryAdd | memorySubtract =>
    obtain ⟨x, -, hi⟩ := bind_eq_ok.mp hread
    cases hi
    cases h
    exact ⟨_, rfl, rfl⟩
  | fixed j =>
    cases hread
    cases i with
    | memory request => cases h; exact ⟨request, rfl, rfl⟩
    | compute _ | chain _ _ | showLast | showHistory | showMemoryLog | showSettings
    | setAngleUnit _ | setPrecision _ | showConstant _ | clearHistory | help | exit => cases h
  | unary _ | binary _ | chain _ | setAngleUnit | setPrecision => cases h

end Action

theorem standard_operations : ∀ command ∈ Command.standard, command.name ∈ operationNames →
    command.action.isOperation := by
  decide +kernel

theorem standard_chains : ∀ command ∈ Command.standard, ∀ row ∈ chainSigns,
    command.name = row.1 → command.action.chainSign? = some row.2 := by
  decide +kernel

theorem standard_registers : ∀ command ∈ Command.standard, ∀ row ∈ registerWords,
    command.name = row.1 → command.action.memoryAction? = some row.2.1 := by
  decide +kernel

theorem standard_mc : ∀ command ∈ Command.standard, command.name = "mc" →
    command.action.memoryAction? = some .clear := by
  decide

theorem standard_last : ∀ command ∈ Command.standard, command.name = "last" →
    command.action = .fixed .showLast := by
  decide

/-! ## One instruction -/

namespace Instruction

variable {help : String} {c c' : Calculator} {reply : Reply}

/-- A computation is answered with the text of the entry that it made. -/
theorem compute_told {x : Computation} (h : (compute x).perform help c = (c', .ok reply)) :
    ∃ r, c'.history = c.history ++ [r] ∧ reply.text = Display.calculation r := by
  obtain ⟨result, hresult, rfl⟩ := reply_eq_ok (congrArg Prod.snd h)
  have hvalue : x.result c.settings = .ok result := (c.compute_snd x).symm.trans hresult
  have hafter : (c.compute x).1 = c' := congrArg Prod.fst h
  rw [Calculator.compute_of_ok hvalue] at hafter
  subst hafter
  exact ⟨c.entry x result, rfl, rfl⟩

/-- A computation that goes on from the last result is answered with the operands and the result of
the entry that it made, which is tagged with its operation. -/
theorem chain_told {op : Chain} {b : Float} (h : (chain op b).perform help c = (c', .ok reply)) :
    ∃ r, c'.history = c.history ++ [r] ∧ r.operation = op.operation.tag ∧ r.second = some b ∧
      reply.text = Display.number r.first ++ " " ++ op.symbol ++ " " ++ Display.number b ++ " = "
        ++ Display.number r.result := by
  obtain ⟨result, hresult, rfl⟩ := reply_eq_ok (congrArg Prod.snd h)
  have hvalue := (c.compute_snd (.binary op.operation c.lastResult b)).symm.trans hresult
  have hafter : (c.compute (.binary op.operation c.lastResult b)).1 = c' := congrArg Prod.fst h
  rw [Calculator.compute_of_ok hvalue] at hafter
  subst hafter
  exact ⟨c.entry (.binary op.operation c.lastResult b) result, rfl, rfl, rfl, rfl⟩

/-- A use of the register is answered with the number of the entry that it made. -/
theorem memory_told {request : MemoryRequest}
    (h : (memory request).perform help c = (c', .ok reply)) :
    ∃ a answer, c'.memory.log = c.memory.log ++ [a] ∧
      Posted c.memory.value request a c'.memory.value answer ∧
      reply.text = memoryText answer request := by
  rw [perform_memory, Prod.mk.injEq, Except.ok.injEq] at h
  obtain ⟨rfl, rfl⟩ := h
  obtain ⟨entry, hlog, posted⟩ := c.memory.access_posted request c.now
  exact ⟨entry, _, hlog, posted, rfl⟩

theorem memoryText_of_register {name words : String} {answer : Float} {request : MemoryRequest}
    (h : (name, request.action, words) ∈ registerWords) :
    memoryText answer request = words ++ Display.number answer := by
  simp only [registerWords, List.mem_cons, List.not_mem_nil, or_false, Prod.mk.injEq] at h
  rcases h with ⟨-, haction, rfl⟩ | ⟨-, haction, rfl⟩ | ⟨-, haction, rfl⟩ | ⟨-, haction, rfl⟩ <;>
    cases request <;> cases haction <;> rfl

end Instruction

/-- But for a clearing, what is answered is what the register then holds, which the entry tells. -/
theorem Posted.answer_eq {held new answer : Float} {request : MemoryRequest} {a : MemoryAccess}
    (h : Posted held request a new answer) (hclear : request.action ≠ .clear) :
    answer = new ∧ a.new = new := by
  cases h with
  | clear time => exact absurd rfl hclear
  | store | retrieve | add | subtract => exact ⟨rfl, rfl⟩

/-- What is answered to a clearing is what the register held, which the entry tells. -/
theorem Posted.old_eq {held new answer : Float} {request : MemoryRequest} {a : MemoryAccess}
    (h : Posted held request a new answer) (hclear : request.action = .clear) :
    request = .clear ∧ a.old = some answer := by
  cases h with
  | clear time => exact ⟨rfl, rfl⟩
  | store | retrieve | add | subtract => cases hclear

/-! ## The listing after an entry -/

/-- What stands above a new entry in the text of the history. -/
def Instruction.historyAbove (history : List Calculation) : String :=
  if history.isEmpty then "Operation history:" else historyText history

theorem Display.numberedFrom_concat {α : Type} (render : α → String) (items : List α) (a : α) :
    numberedFrom 1 render (items ++ [a]) =
      numberedFrom 1 render items ++ [toString (items.length + 1) ++ ". " ++ render a] := by
  simp only [numberedFrom_eq_mapIdx, List.mapIdx_concat, Nat.add_comm 1]

/-- An entry adds one line to the text of the history. -/
theorem Instruction.historyText_concat (history : List Calculation) (r : Calculation) :
    historyText (history ++ [r]) =
      historyAbove history ++ "\n" ++ (toString (history.length + 1) ++ ". "
        ++ Display.calculation r) := by
  have htext : historyText (history ++ [r]) = "Operation history:\n" ++
      Display.numbered Display.calculation (history ++ [r]) := if_neg (by simp)
  rw [htext, Display.numbered, Display.numberedFrom_concat]
  by_cases hhistory : history = []
  · subst hhistory
    rfl
  · have hlines : Display.numberedFrom 1 Display.calculation history ≠ [] := by
      rw [Display.numberedFrom_eq_mapIdx]
      simpa using hhistory
    have habove : historyAbove history =
        "Operation history:\n" ++ Display.numbered Display.calculation history := by
      simp [historyAbove, historyText, hhistory]
    rw [String.intercalate_append_of_ne_nil hlines (List.cons_ne_nil _ _),
      String.intercalate_singleton, habove, Display.numbered]
    simp only [String.append_assoc]

namespace Interpreter

variable {i after : Interpreter} {line name : String} {words : List String} {reply : Reply}

/-- A line that is answered was read as an instruction of the command that it names, and the
instruction was performed. -/
theorem exists_instruction_of_reply (hcatalogue : i.catalogue = .standard)
    (hline : splitLine line = some (name, words))
    (h : i.submit line = (after, .ok (some reply))) :
    ∃ command ∈ Command.standard, command.name = name ∧ ∃ instruction,
      command.action.read ⟨words, i.strictness⟩ = .ok instruction ∧
      instruction.perform i.catalogue.help i.calculator = (after.calculator, .ok reply) := by
  rw [submit_eq, hcatalogue] at h
  cases hread : Catalogue.standard.reading i.strictness line with
  | blank => rw [hread] at h; cases h
  | refused fault => rw [hread] at h; cases h
  | instruction instruction =>
    obtain ⟨name', words', command, hline', hmem, hname, -, haction⟩ :=
      exists_command_of_reading hread
    obtain ⟨rfl, rfl⟩ : name = name' ∧ words = words' := by
      simpa using hline.symm.trans hline'
    refine ⟨command, hmem, hname, instruction, haction, ?_⟩
    rw [hread, follow] at h
    have hreply : (instruction.perform i.catalogue.help i.calculator).2.map some =
        .ok (some reply) := (i.answer_snd _).symm.trans (congrArg Prod.snd h)
    obtain ⟨running, hafter⟩ := i.answer_fst (instruction.perform i.catalogue.help i.calculator)
    rw [h] at hafter
    refine Prod.ext ?_ ?_
    · exact (congrArg Interpreter.calculator hafter).symm
    · cases hperform : (instruction.perform i.catalogue.help i.calculator).2 with
      | ok r => rw [hperform] at hreply; cases hreply; rfl
      | error fault => rw [hperform] at hreply; cases hreply

/-- **A reply tells of the entry that was made.**  A line that is answered

* with a command for an operation made one entry in the history and is answered with its text, which
  is also the last line of what `hist` shows then;
* with a chain command made one entry, tagged for the sign of the reply, and is answered with its
  two operands and its result;
* with a command that stores in the register, adds to it, subtracts from it or retrieves from it made
  one entry in the log, for that use, and is answered with what the register then holds, which is
  also what the entry says of it;
* with `mc` made one entry in the log, for a clearing, and is answered with what it says that the
  register held before;
* with `last` is answered with the result of the newest entry, and with `0` if there is none. -/
theorem reply_tells (hcatalogue : i.catalogue = .standard)
    (hline : splitLine line = some (name, words)) (h : i.submit line = (after, .ok (some reply))) :
    let c := i.calculator
    let c' := after.calculator
    (name ∈ operationNames → ∃ r, c'.history = c.history ++ [r] ∧
      reply.text = Display.calculation r ∧
      (after.submit "hist").2 = .ok (some { text := Instruction.historyAbove c.history ++ "\n" ++
        (toString (c.history.length + 1) ++ ". " ++ reply.text) })) ∧
    (∀ sign tag, (name, sign, tag) ∈ chainSigns → ∃ r b, c'.history = c.history ++ [r] ∧
      r.operation = tag ∧ r.second = some b ∧
      reply.text = Display.number r.first ++ " " ++ sign ++ " " ++ Display.number b ++ " = "
        ++ Display.number r.result) ∧
    (∀ action verb, (name, action, verb) ∈ registerWords → ∃ a,
      c'.memory.log = c.memory.log ++ [a] ∧ a.action = action ∧ a.new = c'.memory.value ∧
      reply.text = verb ++ Display.number c'.memory.value) ∧
    (name = "mc" → ∃ a old, c'.memory.log = c.memory.log ++ [a] ∧ a.action = .clear ∧
      a.old = some old ∧ reply.text = "Memory clear: 0 (was " ++ Display.number old ++ ")") ∧
    (name = "last" → c.Reachable →
      reply.text = "Last result: " ++ Display.number (newestResult c.history)) := by
  have hcatalogue' : after.catalogue = .standard := by
    rw [← hcatalogue, ← i.submit_catalogue line, h]
  obtain ⟨command, hmem, rfl, instruction, hread, hperform⟩ :=
    exists_instruction_of_reply hcatalogue hline h
  refine ⟨fun hname => ?operation, fun sign tag hrow => ?chain, fun action verb hrow => ?register,
    fun hname => ?clear, fun hname hc => ?last⟩
  case operation =>
    obtain ⟨x, rfl⟩ :=
      Action.exists_compute_of_read (standard_operations command hmem hname) hread
    obtain ⟨r, hhistory, htext⟩ := Instruction.compute_told hperform
    refine ⟨r, hhistory, htext, ?_⟩
    rw [submit_hist hcatalogue', hhistory, Instruction.historyText_concat, htext]
  case chain =>
    obtain ⟨op, b, rfl, hsign⟩ :=
      Action.exists_chain_of_read (standard_chains command hmem _ hrow rfl) hread
    obtain ⟨rfl, rfl⟩ := Prod.mk.inj hsign
    obtain ⟨r, told⟩ := Instruction.chain_told hperform
    exact ⟨r, b, told⟩
  case register =>
    obtain ⟨request, rfl, rfl⟩ :=
      Action.exists_memory_of_read (standard_registers command hmem _ hrow rfl) hread
    obtain ⟨a, answer, hlog, posted, htext⟩ := Instruction.memory_told hperform
    have hclear : request.action ≠ .clear := by
      intro hclear
      rw [hclear] at hrow
      simp [registerWords] at hrow
    obtain ⟨rfl, hnew⟩ := posted.answer_eq hclear
    rw [Instruction.memoryText_of_register hrow] at htext
    exact ⟨a, hlog, posted.action_eq, hnew, htext⟩
  case clear =>
    obtain ⟨request, rfl, haction⟩ :=
      Action.exists_memory_of_read (standard_mc command hmem hname) hread
    obtain ⟨a, answer, hlog, posted, htext⟩ := Instruction.memory_told hperform
    obtain ⟨rfl, hold⟩ := posted.old_eq haction
    exact ⟨a, answer, hlog, posted.action_eq, hold, htext⟩
  case last =>
    rw [standard_last command hmem hname] at hread
    cases hread
    obtain rfl := Except.ok.inj (congrArg Prod.snd hperform)
    exact congrArg (fun x => "Last result: " ++ Display.number x)
      (Calculator.lastResult_of_reachable hc)

/-- An interpreter with one place kept after the point, after a computation and a use of the
register. -/
def roundingRun : Interpreter :=
  { calculator := Calculator.run { clock := .still ⟨0, 0⟩ }
      [.setPrecision 1, .compute (.unary .sine 45), .access (.store 2.5)] }

theorem reply_tells_roundingRun :
    ((roundingRun.submit "cos 45").1.submit "hist").2 = .ok (some
      { text := "Operation history:\n1. sin(45) = 0.7\n2. cos(45) = 0.7" }) ∧
    (∃ r b, (roundingRun.submit "c* 3").1.calculator.history =
        roundingRun.calculator.history ++ [r] ∧ r.operation = "multiply" ∧ r.second = some b) ∧
    (∃ a, (roundingRun.submit "m- 0.5").1.calculator.memory.log =
        roundingRun.calculator.memory.log ++ [a] ∧ a.action = .subtract ∧
        a.new = (roundingRun.submit "m- 0.5").1.calculator.memory.value) ∧
    (roundingRun.calculator.Reachable ∧
      "Last result: 0.7" =
        "Last result: " ++ Display.number (newestResult roundingRun.calculator.history)) := by
  have hcos : splitLine "cos 45" = some ("cos", ["45"]) := by decide +kernel
  have hchain : splitLine "c* 3" = some ("c*", ["3"]) := by decide +kernel
  have hregister : splitLine "m- 0.5" = some ("m-", ["0.5"]) := by decide +kernel
  have hlast : splitLine "last" = some ("last", []) := by decide +kernel
  have rcos : (roundingRun.submit "cos 45").2 = .ok (some { text := "cos(45) = 0.7" }) := by
    decide +kernel
  have rchain : (roundingRun.submit "c* 3").2 =
      .ok (some { text := "0.7 * 3 = 2.0999999999999996" }) := by
    decide +kernel
  have rregister : (roundingRun.submit "m- 0.5").2 = .ok (some { text := "Memory subtract: 2" }) := by
    decide +kernel
  have rlast : (roundingRun.submit "last").2 = .ok (some { text := "Last result: 0.7" }) := by
    decide +kernel
  have told := (reply_tells rfl hcos (Prod.ext rfl rcos)).1 (by decide)
  have toldChain := (reply_tells rfl hchain (Prod.ext rfl rchain)).2.1 "*" "multiply" (by decide)
  have toldRegister := (reply_tells rfl hregister (Prod.ext rfl rregister)).2.2.1 .subtract
    "Memory subtract: " (by decide)
  have reachable : roundingRun.calculator.Reachable := .run (.fresh _) _
  have toldLast := (reply_tells rfl hlast (Prod.ext rfl rlast)).2.2.2.2 rfl reachable
  obtain ⟨-, -, -, hist⟩ := told
  obtain ⟨r, b, hhistory, htag, hsecond, -⟩ := toldChain
  obtain ⟨a, hlog, haction, hnew, -⟩ := toldRegister
  exact ⟨hist.trans (by decide +kernel), ⟨r, b, hhistory, htag, hsecond⟩,
    ⟨a, hlog, haction, hnew⟩, reachable, toldLast⟩

end Interpreter

end DeskCalculator
