import DeskCalculator.ConfigFile
import DeskCalculator.Proofs.Provenance
import DeskCalculator.Proofs.Sessions
import DeskCalculator.Proofs.TenPowers
import DeskCalculator.Proofs.Verdicts

/-!
# DeskCalculator.Proofs.Precision — the precision in force is always valid

A precision comes in by a config that was made by hand or read from a text, by other settings for a
calculator, by a call, or by a line with `prec`.  Each of these ways has a check of its own, and all
of them go through `Settings.checkPrecision`.

* `Calculator.Present`: the calculators that there can be, whatever was done in whatever order.
* `valid_of_present`: their settings are valid.
* `Session.new_eq_ok_iff`, `Config.ofText_eq_ok_iff`: which configs give a session, and which texts
  give a config.
* `no_route_out_of_range`: all of it, with what is said to a precision that is out of range.
-/

namespace DeskCalculator

open Json (Value)

/-! ## The check -/

namespace Settings

/-- What a precision that is no valid one is answered. -/
theorem checkPrecision_of_outside {n : Int} (h : ¬ (0 ≤ n ∧ n ≤ 15)) :
    checkPrecision n = .error (.badPrecision (toString n)) := if_neg h

theorem checkPrecision_eq_ok {n : Int} {p : UInt32} :
    checkPrecision n = .ok p ↔ (0 ≤ n ∧ n ≤ 15) ∧ (p.toNat : Int) = n := by
  by_cases h : 0 ≤ n ∧ n ≤ 15
  · have hn : n.toNat < 2 ^ 32 := by omega
    have hword : (UInt32.ofNat n.toNat).toNat = n.toNat := UInt32.toNat_ofNat_of_lt hn
    have hcheck : checkPrecision n = .ok (.ofNat n.toNat) := if_pos h
    rw [hcheck]
    constructor
    · intro hp
      cases hp
      exact ⟨h, by omega⟩
    · rintro ⟨-, hp⟩
      have hsame : UInt32.ofNat n.toNat = p := UInt32.toNat_inj.mp (by omega)
      rw [hsame]
  · rw [checkPrecision_of_outside h]
    constructor
    · intro hp
      cases hp
    · intro hp
      exact absurd hp.1 h

theorem check_of_outside {s : Settings} (h : 15 < s.precision.toNat) :
    s.check = .error (.badPrecision (toString s.precision.toNat)) :=
  check_of_not_valid (Nat.not_le.mpr h)

/-- A valid precision is the same number as a signed word. -/
theorem Valid.toInt32 {s : Settings} (h : s.Valid) :
    s.precision.toInt32.toInt = s.precision.toNat :=
  Binary64.toInt_of_lt (Nat.lt_of_le_of_lt h (by decide))

end Settings

/-! ## Calculators -/

namespace Calculator

variable {c c' : Calculator}

theorem Effect.valid {k : Call} (h : c.Effect k c') (hc : c.settings.Valid) :
    c'.settings.Valid := by
  cases h with
  | computed asked value => exact hc
  | accessed request => exact hc
  | cleared => exact hc
  | refused reason => exact hc
  | @configured k s asked =>
    cases k with
    | setAngleUnit text =>
      cases hunit : AngleUnit.ofName text with
      | ok unit =>
        simp only [Call.settings?, hunit, Except.map, Option.some.injEq, Except.ok.injEq] at asked
        rw [← asked]
        exact hc
      | error fault => simp [Call.settings?, hunit, Except.map] at asked
    | setPrecision n =>
      cases hprecision : Settings.checkPrecision n with
      | ok precision =>
        simp only [Call.settings?, hprecision, Except.map, Option.some.injEq,
          Except.ok.injEq] at asked
        obtain ⟨hrange, hn⟩ := Settings.checkPrecision_eq_ok.mp hprecision
        rw [← asked]
        show precision.toNat ≤ 15
        omega
      | error fault => simp [Call.settings?, hprecision, Except.map] at asked
    | compute _ | chain _ _ | access _ | clearHistory => cases asked

theorem run_valid (hc : c.settings.Valid) (calls : List Call) : (c.run calls).settings.Valid := by
  induction calls generalizing c with
  | nil => exact hc
  | cons k calls ih => exact ih ((c.apply_effect k).valid hc)

end Calculator

/-! ## Sessions and configs -/

namespace Session

variable {s : Session}

/-- Which configs give a session, and which calculator and strictness it has. -/
theorem new_eq_ok_iff {config : Config} {clock : Clock} :
    Session.new config clock = .ok s ↔ config.precision.toNat ≤ 15 ∧
      s = { interpreter :=
              { calculator := { clock, settings := config.settings }
                strictness := config.strictness }
            config } := by
  unfold Session.new
  by_cases hvalid : config.settings.Valid
  · have hnew : Calculator.new clock config.settings =
        .ok { clock, settings := config.settings } :=
      Calculator.withSettings_eq_ok.mpr ⟨hvalid, rfl⟩
    rw [hnew]
    constructor
    · intro h
      cases h
      exact ⟨hvalid, rfl⟩
    · rintro ⟨-, rfl⟩
      rfl
  · have hnew : Calculator.new clock config.settings =
        .error (.badPrecision (toString (config.settings.precision.toNat : Int))) := by
      unfold Calculator.new Calculator.withSettings
      rw [Settings.check_of_not_valid hvalid]
      rfl
    rw [hnew]
    constructor
    · intro h
      cases h
    · intro h
      exact absurd h.1 hvalid

theorem new_of_outside {config : Config} (h : 15 < config.precision.toNat) (clock : Clock) :
    Session.new config clock = .error (.badPrecision (toString config.precision.toNat)) := by
  have hcheck : config.settings.check = _ := Settings.check_of_outside h
  unfold Session.new Calculator.new Calculator.withSettings
  rw [hcheck]
  rfl

theorem processLine_calculator (s : Session) (line : String) :
    (s.processLine line).1.interpreter.calculator = s.interpreter.calculator ∨
      (s.processLine line).1.interpreter.calculator =
        (s.interpreter.submit line).1.calculator := by
  by_cases hs : s.running = true
  · rcases processLine_cases hs line with ⟨i, hsubmit, hline⟩ | ⟨i, reply, hsubmit, hline⟩ |
      ⟨i, fault, hsubmit, hline⟩ <;> exact .inr (by rw [hline, hsubmit])
  · rw [processLine_of_stopped (by simpa using hs)]
    exact .inl rfl

/-- A line that is complained about leaves the calculator as it was. -/
theorem processLine_of_complaint {line text : String} (h : (s.processLine line).2 = some text)
    (hcomplaint : isComplaint text = true) :
    (s.processLine line).1.interpreter = s.interpreter := by
  by_cases hs : s.running = true
  · rcases processLine_cases hs line with ⟨i, -, hline⟩ | ⟨i, reply, hsubmit, hline⟩ |
      ⟨i, fault, hsubmit, -⟩
    · rw [hline] at h
      cases h
    · rw [hline] at h
      cases h
      have hreply : (s.interpreter.submit line).2 = .ok (some reply) := by rw [hsubmit]
      rw [Interpreter.isComplaint_of_submit hreply] at hcomplaint
      cases hcomplaint
    · rw [processLine_of_fault hs (by rw [hsubmit])]
  · rw [processLine_of_stopped (by simpa using hs)]

end Session

namespace Config

/-- The config that a text says, whatever its precision. -/
def read? (text : String) : Option Config := Value.parse? text >>= ofJson?

theorem ofText_of_none {text : String} (h : read? text = none) : ofText text = .error .json := by
  unfold read? at h
  simp only [ofText, h]

theorem ofText_of_valid {text : String} {c : Config} (h : read? text = some c)
    (hc : c.precision.toNat ≤ 15) : ofText text = .ok c := by
  have hcheck : c.settings.check = .ok () := Settings.check_of_valid hc
  unfold read? at h
  simp only [ofText, h, hcheck]

theorem ofText_of_outside {text : String} {c : Config} (h : read? text = some c)
    (hc : 15 < c.precision.toNat) :
    ofText text = .error (.fault (.badPrecision (toString c.precision.toNat))) := by
  have hcheck : c.settings.check = _ := Settings.check_of_outside hc
  unfold read? at h
  simp only [ofText, h, hcheck]
  rfl

/-- Which texts give a config. -/
theorem ofText_eq_ok_iff {text : String} {c : Config} :
    ofText text = .ok c ↔ read? text = some c ∧ c.precision.toNat ≤ 15 := by
  constructor
  · intro h
    cases hread : read? text with
    | none => rw [ofText_of_none hread] at h; cases h
    | some c' =>
      by_cases hc : c'.precision.toNat ≤ 15
      · rw [ofText_of_valid hread hc] at h
        cases h
        exact ⟨rfl, hc⟩
      · rw [ofText_of_outside hread (Nat.not_le.mp hc)] at h
        cases h
  · rintro ⟨hread, hc⟩
    exact ofText_of_valid hread hc

end Config

/-! ## All the ways -/

namespace Calculator

/-- The calculators that there can be: a fresh one, one with other settings, one after a call, one
after a line that any interpreter carries out on it, that of a session from a config, and that of a
session after a use, in any order. -/
inductive Present : Calculator → Prop
  | fresh (clock : Clock) : Present { clock }
  | withSettings {c c' : Calculator} {s : Settings} (h : Present c)
      (hs : c.withSettings s = .ok c') : Present c'
  | call {c : Calculator} (h : Present c) (k : Call) : Present (c.apply k)
  | line {i : Interpreter} (h : Present i.calculator) (line : String) :
      Present (i.submit line).1.calculator
  | session {config : Config} {clock : Clock} {s : Session}
      (hs : Session.new config clock = .ok s) : Present s.interpreter.calculator
  | use {s : Session} (h : Present s.interpreter.calculator) (u : SessionUse) :
      Present (s.after u).interpreter.calculator

theorem Present.afterAll {s : Session} (h : s.interpreter.calculator.Present)
    (uses : List SessionUse) : (s.afterAll uses).interpreter.calculator.Present := by
  induction uses generalizing s with
  | nil => exact h
  | cons u uses ih => exact ih (h.use u)

theorem submit_valid {i : Interpreter} (h : i.calculator.settings.Valid) (line : String) :
    (i.submit line).1.calculator.settings.Valid := by
  rw [i.submit_calculator]
  exact run_valid h _

theorem processLine_valid {s : Session} (h : s.interpreter.calculator.settings.Valid)
    (line : String) : (s.processLine line).1.interpreter.calculator.settings.Valid := by
  rcases s.processLine_calculator line with hsame | hline
  · rw [hsame]
    exact h
  · rw [hline]
    exact submit_valid h line

theorem start_calculator (s : Session) :
    s.start.interpreter.calculator = s.interpreter.calculator := by
  unfold Session.start
  split <;> rfl

theorem after_valid {s : Session} (h : s.interpreter.calculator.settings.Valid) (u : SessionUse) :
    (s.after u).interpreter.calculator.settings.Valid := by
  refine Session.after_keeps (P := fun s => s.interpreter.calculator.settings.Valid) ?_ ?_ h u
  · intro s h
    rw [start_calculator]
    exact h
  · intro s line h
    exact processLine_valid h line

/-- **Every calculator that there can be has valid settings.** -/
theorem valid_of_present {c : Calculator} (h : c.Present) : c.settings.Valid := by
  induction h with
  | fresh clock => exact (by decide : Settings.Valid {})
  | withSettings _ hs _ =>
    obtain ⟨hvalid, rfl⟩ := withSettings_eq_ok.mp hs
    exact hvalid
  | call _ k ih => exact (apply_effect _ k).valid ih
  | line _ line ih => exact submit_valid ih line
  | session hs =>
    obtain ⟨hvalid, rfl⟩ := Session.new_eq_ok_iff.mp hs
    exact hvalid
  | use _ u ih => exact after_valid ih u

end Calculator

/-! ## What a precision is answered -/

/-- The reason of a refusal. -/
def refusal? {ε α : Type} : Except ε α → Option ε
  | .ok _ => none
  | .error e => some e

/-- The fault of a config. -/
def ConfigError.fault? : ConfigError → Option Fault
  | .fault f => some f
  | .file _ _ | .json => none

/-- `Answered n fault`: the precision `n` is asked for in one of the ways that there are, and meets
with the fault, or with none. -/
inductive Answered : Int → Option Fault → Prop
  | call (c : Calculator) (n : Int) : Answered n (refusal? (c.setPrecision n).2)
  | settings (c : Calculator) (s : Settings) :
      Answered s.precision.toNat (refusal? (c.withSettings s))
  | line {i : Interpreter} {line word : String} {n : Int} (catalogue : i.catalogue = .standard)
      (words : splitLine line = some ("prec", [word]))
      (whole : i.strictness = .strict → ArgumentKind.integer.Accepts word)
      (opens : OpensWithInteger word.toList n) (fits : fitsWord n) :
      Answered n (refusal? (i.submit line).2)
  | config (config : Config) (clock : Clock) :
      Answered config.precision.toNat (refusal? (Session.new config clock))
  | text {text : String} {config : Config} (stated : Config.read? text = some config) :
      Answered config.precision.toNat ((refusal? (Config.ofText text)).bind ConfigError.fault?)

/-- What is said to a precision. -/
def precisionFault? (n : Int) : Option Fault :=
  if 0 ≤ n ∧ n ≤ 15 then none else some (.badPrecision (toString n))

theorem refusal?_checkPrecision (n : Int) :
    refusal? (Settings.checkPrecision n) = precisionFault? n := by
  unfold precisionFault?
  by_cases h : 0 ≤ n ∧ n ≤ 15
  · have hcheck : Settings.checkPrecision n = .ok (.ofNat n.toNat) := if_pos h
    rw [hcheck, if_pos h]
    rfl
  · rw [Settings.checkPrecision_of_outside h, if_neg h]
    rfl

theorem precisionFault?_of_valid {p : UInt32} (h : p.toNat ≤ 15) :
    precisionFault? p.toNat = none := if_pos (by omega)

theorem precisionFault?_of_outside {p : UInt32} (h : 15 < p.toNat) :
    precisionFault? p.toNat = some (.badPrecision (toString p.toNat)) := if_neg (by omega)

/-- **A precision is answered alike in all the ways.** -/
theorem Answered.eq {n : Int} {fault : Option Fault} (h : Answered n fault) :
    fault = precisionFault? n := by
  cases h with
  | call c n => rw [c.setPrecision_snd, refusal?_checkPrecision]
  | settings c s =>
    by_cases hs : s.Valid
    · rw [Calculator.withSettings_eq_ok.mpr ⟨hs, rfl⟩, precisionFault?_of_valid hs]
      rfl
    · have houtside : 15 < s.precision.toNat := Nat.not_le.mp hs
      rw [precisionFault?_of_outside houtside, Calculator.withSettings,
        Settings.check_of_outside houtside]
      rfl
  | @line i line word n catalogue words whole opens fits =>
    have hsubmit := (Interpreter.submit_prec catalogue words whole).2 n opens fits
    have hperform : ((Instruction.setPrecision n).perform i.catalogue.help i.calculator).2 =
        (i.calculator.setPrecision n).2.map _ := rfl
    rw [hsubmit, hperform, Calculator.setPrecision_snd, ← refusal?_checkPrecision]
    cases Settings.checkPrecision n <;> rfl
  | config config clock =>
    by_cases hs : config.precision.toNat ≤ 15
    · rw [Session.new_eq_ok_iff.mpr ⟨hs, rfl⟩, precisionFault?_of_valid hs]
      rfl
    · have houtside := Nat.not_le.mp hs
      rw [precisionFault?_of_outside houtside, Session.new_of_outside houtside]
      rfl
  | @text text config stated =>
    by_cases hs : config.precision.toNat ≤ 15
    · rw [Config.ofText_of_valid stated hs, precisionFault?_of_valid hs]
      rfl
    · have houtside := Nat.not_le.mp hs
      rw [precisionFault?_of_outside houtside, Config.ofText_of_outside stated houtside]
      rfl

/-! ## No way leads out of the range -/

open Calculator (Present)

/-- **No way leads to a precision that is out of range.**  Every calculator that there can be has a
precision up to fifteen, which is the same number as a signed word, and it is the one to which
results are rounded.  A precision that is asked for is taken exactly when it is from 0 to 15; any
other is refused with its digits.  Whatever is refused, for whatever reason, leaves everything as it
was, and so the precision and the angle unit.  A config that is read from a text gives a session
with its angle unit, its precision and its strictness, and a config gives a session exactly when its
precision is valid. -/
theorem no_route_out_of_range :
    (∀ c : Calculator, c.Present →
      c.settings.precision.toNat ≤ 15 ∧
      c.settings.precision.toInt32.toInt = c.settings.precision.toNat ∧
      ∀ (x : Computation) (result : Float), (c.compute x).2 = .ok result →
        ∃ raw, x.value c.settings.angleUnit = .ok raw ∧ result =
          if x.tag ∈ roundedTags then Binary64.roundTo raw c.settings.precision else raw) ∧
    (∀ (n : Int) (fault : Option Fault), Answered n fault →
      fault = if 0 ≤ n ∧ n ≤ 15 then none else some (.badPrecision (toString n))) ∧
    (∀ (c : Calculator) (text : String), Atomic c (c.setAngleUnit text)) ∧
    (∀ (c : Calculator) (n : Int), Atomic c (c.setPrecision n)) ∧
    (∀ (i : Interpreter) (line : String), Atomic i (i.submit line)) ∧
    (∀ (s : Session) (line text : String), (s.processLine line).2 = some text →
      isComplaint text = true → (s.processLine line).1.interpreter = s.interpreter) ∧
    (∀ (text : String) (config : Config) (clock : Clock), Config.ofText text = .ok config →
      ∃ s, Session.new config clock = .ok s ∧
        s.interpreter.calculator.settings = ⟨config.angleUnit, config.precision⟩ ∧
        s.interpreter.strictness = if config.strictNumbers then .strict else .lenient) ∧
    ∀ (config : Config) (clock : Clock),
      (∃ s, Session.new config clock = .ok s) ↔ config.precision.toNat ≤ 15 := by
  refine ⟨?_, fun n fault h => h.eq, Calculator.setAngleUnit_atomic, Calculator.setPrecision_atomic,
    Interpreter.submit_atomic, fun s line text => Session.processLine_of_complaint, ?_, ?_⟩
  · intro c hc
    have hvalid : c.settings.Valid := Calculator.valid_of_present hc
    refine ⟨hvalid, hvalid.toInt32, ?_⟩
    intro x result hresult
    rw [c.compute_snd] at hresult
    exact Computation.exists_value hresult
  · intro text config clock h
    have hprecision := (Config.ofText_eq_ok_iff.mp h).2
    exact ⟨_, Session.new_eq_ok_iff.mpr ⟨hprecision, rfl⟩, rfl, rfl⟩
  · intro config clock
    constructor
    · rintro ⟨s, hs⟩
      exact (Session.new_eq_ok_iff.mp hs).1
    · intro h
      exact ⟨_, Session.new_eq_ok_iff.mpr ⟨h, rfl⟩⟩

/-- Uses of a session that ask for precisions in and out of range, and for no angle unit. -/
def precisionUses : List SessionUse :=
  [.script ["prec 16", "mode radians", "prec 3", "mode grads"], .line "prec -1"]

theorem no_route_out_of_range_tried :
    let c := (Session.freshSession.afterAll precisionUses).interpreter.calculator
    c.settings = ⟨.radians, 3⟩ ∧ c.settings.precision.toNat ≤ 15 ∧
      refusal? (Session.new { precision := 4294967295 } (.still ⟨0, 0⟩)) =
        some (.badPrecision "4294967295") ∧
      ∃ s, Session.new { precision := 15, strictNumbers := true } (.still ⟨0, 0⟩) = .ok s ∧
        s.interpreter.calculator.settings = ⟨.degrees, 15⟩ ∧
        s.interpreter.strictness = .strict := by
  intro c
  have hnew : Session.new {} (.still ⟨0, 0⟩) = .ok Session.freshSession := rfl
  have hpresent : c.Present := (Present.session hnew).afterAll _
  have htext : Config.ofText "\x7b\"precision\":15,\"strict_numbers\":true\x7d" =
      .ok { precision := 15, strictNumbers := true } := by decide +kernel
  obtain ⟨hrange, hanswer, -, -, -, -, hconfig, -⟩ := no_route_out_of_range
  exact ⟨by decide +kernel, (hrange c hpresent).1, hanswer _ _ (.config _ _),
    hconfig _ _ (.still ⟨0, 0⟩) htext⟩

end DeskCalculator
