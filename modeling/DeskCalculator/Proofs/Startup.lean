import DeskCalculator.CommandLine.Program
import DeskCalculator.Proofs.Clocks
import DeskCalculator.Proofs.Composition
import DeskCalculator.Proofs.JsonExactness
import DeskCalculator.Proofs.Precision

/-!
# DeskCalculator.Proofs.Startup — what the program makes of its options

Four checks stand before the session, in a fixed order, and the first that fails decides the
outcome.  If none of them fails, there is a session with the settings of the options, of the file
and of the defaults, in this order, and the program writes what its dialogue shows.

* `Config.Stated`: what a file has to say, by the grammar of JSON.
* `Fails`: the ways in which each of the checks can fail, told from the options and the files.
* `Settled`: which config the options and the file come to.
* `Session.Opened`: the session that is had from a config.
* `Session.run_ending`: the dialogue is broken off exactly at a line that is not UTF-8 and that the
  session, still running, meets.
* `program_outcome`: the output and the exit code in all cases.
-/

namespace DeskCalculator

/-! ## Lines that are not UTF-8 -/

namespace Text

variable {ls : List (List UInt8)}

theorem length_readable (h : ∀ bytes ∈ ls, (decode? bytes).isSome) :
    (readable ls).length = ls.length := by
  induction ls with
  | nil => rfl
  | cons bytes ls ih =>
    rw [List.forall_mem_cons] at h
    obtain ⟨line, hline⟩ := Option.isSome_iff_exists.mp h.1
    rw [readable_cons_of_some hline, List.length_cons, List.length_cons, ih h.2]

/-- All lines have texts, or one of them is the first that has none. -/
theorem readable_cases (ls : List (List UInt8)) : (∀ bytes ∈ ls, (decode? bytes).isSome) ∨
    ∃ before bad later, ls = before ++ bad :: later ∧
      (∀ bytes ∈ before, (decode? bytes).isSome) ∧ decode? bad = none := by
  induction ls with
  | nil => exact .inl nofun
  | cons bytes ls ih =>
    cases hbytes : decode? bytes with
    | none => exact .inr ⟨[], bytes, ls, rfl, nofun, hbytes⟩
    | some line =>
      have hsome : (decode? bytes).isSome := by rw [hbytes]; rfl
      rcases ih with hall | ⟨before, bad, later, rfl, hbefore, hbad⟩
      · exact .inl (List.forall_mem_cons.mpr ⟨hsome, hall⟩)
      · exact .inr ⟨bytes :: before, bad, later, rfl,
          List.forall_mem_cons.mpr ⟨hsome, hbefore⟩, hbad⟩

theorem readable_of_bad {before : List (List UInt8)} {bad : List UInt8}
    (hbefore : ∀ bytes ∈ before, (decode? bytes).isSome) (hbad : decode? bad = none)
    (later : List (List UInt8)) : readable (before ++ bad :: later) = readable before := by
  rw [readable_append hbefore, readable_cons_of_none hbad, List.append_nil]

end Text

namespace Session

/-- In a dialogue over the input, the session meets a line that is not UTF-8, and it is still
running after the lines before it. -/
def MeetsBadLine (s : Session) (input : List UInt8) : Prop :=
  ∃ before bad later, Text.lines input = before ++ bad :: later ∧
    (∀ bytes ∈ before, (Text.decode? bytes).isSome) ∧ Text.decode? bad = none ∧
    (s.runScript (Text.readable before)).1.running = true

/-- A dialogue is broken off exactly when the session meets a line that is not UTF-8. -/
theorem run_ending (s : Session) (input : List UInt8) :
    (s.run input).ending = .invalidText ↔ s.MeetsBadLine input := by
  rw [run_eq]
  rcases Text.readable_cases (Text.lines input) with
    hall | ⟨before, bad, later, hlines, hbefore, hbad⟩
  · have hlength := Text.length_readable hall
    constructor
    · intro h
      simp [hlength] at h
    · rintro ⟨before, bad, later, hlines, -, hbad, -⟩
      have hsome := hall bad (by simp [hlines])
      simp [hbad] at hsome
  · have hreadable := Text.readable_of_bad hbefore hbad later
    have hlength := Text.length_readable hbefore
    constructor
    · intro h
      refine ⟨before, bad, later, hlines, hbefore, hbad, ?_⟩
      by_contra hstopped
      simp [hlines, hreadable, hstopped] at h
    · rintro ⟨before', bad', later', hlines', hbefore', hbad', hrunning⟩
      have hsame : Text.readable before' = Text.readable before := by
        rw [← Text.readable_of_bad hbefore' hbad' later', ← hlines', hlines, hreadable]
      rw [hsame] at hrunning
      simp [hlines, hreadable, hlength, hrunning]

/-- A session with the settings and the manners of a config, in which nothing was done yet. -/
structure Opened (config : Config) (clock : Clock) (s : Session) : Prop where
  calculator : s.interpreter.calculator =
    { clock, settings := { angleUnit := config.angleUnit, precision := config.precision } }
  strictness : s.interpreter.strictness = .strict ↔ config.strictNumbers = true
  catalogue : s.interpreter.catalogue = .standard
  manners : s.config = config
  summary : s.summary = ⟨0, 0⟩
  stopped : s.running = false
  not_exited : s.exited = false

theorem opened_of_new {s : Session} {config : Config} {clock : Clock}
    (h : Session.new config clock = .ok s) : s.Opened config clock := by
  obtain ⟨-, rfl⟩ := new_eq_ok_iff.mp h
  refine ⟨rfl, ?_, rfl, rfl, rfl, rfl, rfl⟩
  cases hstrict : config.strictNumbers <;> simp [Config.strictness, hstrict]

/-- Sessions from one config differ only in times. -/
theorem sameButTimes_of_new {s s' : Session} {config : Config} {clock clock' : Clock}
    (h : Session.new config clock = .ok s) (h' : Session.new config clock' = .ok s') :
    s.SameButTimes s' := by
  obtain ⟨-, rfl⟩ := new_eq_ok_iff.mp h
  obtain ⟨-, rfl⟩ := new_eq_ok_iff.mp h'
  exact ⟨⟨⟨rfl, rfl, rfl, rfl, rfl⟩, rfl, rfl, rfl⟩, rfl, rfl, rfl⟩

end Session

/-! ## Configs in files -/

namespace Config

variable {text : String} {config : Config}

/-- The text states the config: it is a text of a JSON value that has the parts of the config. -/
def Stated (text : String) (config : Config) : Prop :=
  ∃ v, Json.Value.Spells v text.toList ∧ ofJson? v = some config

theorem stated_iff : Stated text config ↔ read? text = some config := by
  unfold Stated read?
  simp only [← Json.Value.parse?_eq_some_iff, Option.bind_eq_bind, Option.bind_eq_some_iff]

theorem read?_eq_none_of_unstated (h : ∀ config, ¬ Stated text config) : read? text = none :=
  Option.eq_none_iff_forall_ne_some.mpr fun config hread => h config (stated_iff.mpr hread)

/-- No text states two configs. -/
theorem Stated.unique {config' : Config} (h : Stated text config) (h' : Stated text config') :
    config = config' := by
  obtain ⟨v, hv, hconfig⟩ := h
  obtain ⟨w, hw, hconfig'⟩ := h'
  obtain rfl := hv.unique hw
  exact Option.some.inj (hconfig.symm.trans hconfig')

end Config

namespace CommandLine

/-- The exit code of the program. -/
def Outcome.exitCode (r : Outcome) : UInt32 := r.failure.elim 0 Failure.code

/-- What the program writes to the standard error, `said` being what the reader of JSON has against
the config file, if it has something against it. -/
def Outcome.errorText (r : Outcome) (said : JsonFault) : String :=
  r.failure.elim "" fun failure => failure.message said ++ "\n"

/-! ## The checks -/

/-- The checks that are made before a session runs. -/
inductive Check
  | configFile
  | mode
  | precision
  | script

/-- The checks that are made before a check. -/
def Check.before : Check → List Check
  | configFile => []
  | mode => [.configFile]
  | precision => [.configFile, .mode]
  | script => [.configFile, .mode, .precision]

/-- `Fails o read check failure`: under the options `o` and with the files `read`, the check ends in
the failure. -/
inductive Fails (o : Options) (read : String → Option (List UInt8)) : Check → Failure → Prop
  | missing {path : String} (named : o.config = some path) (absent : read path = none) :
      Fails o read .configFile
        (.file ("Failed to read config file " ++ path ++ ": " ++
          "No such file or directory (os error 2)"))
  | notText {path : String} {bytes : List UInt8} (named : o.config = some path)
      (present : read path = some bytes) (invalid : Text.decode? bytes = none) :
      Fails o read .configFile
        (.file ("Failed to read config file " ++ path ++ ": " ++
          "stream did not contain valid UTF-8"))
  | notConfig {path text : String} {bytes : List UInt8} (named : o.config = some path)
      (present : read path = some bytes) (decoded : Text.decode? bytes = some text)
      (unstated : ∀ config, ¬ Config.Stated text config) : Fails o read .configFile .json
  | outside {path text : String} {bytes : List UInt8} {config : Config}
      (named : o.config = some path) (present : read path = some bytes)
      (decoded : Text.decode? bytes = some text) (stated : Config.Stated text config)
      (range : 15 < config.precision.toNat) :
      Fails o read .configFile (.fault (.badPrecision (toString config.precision.toNat)))
  | mode {text : String} (given : o.mode = some text) (degrees : text ≠ "degrees")
      (radians : text ≠ "radians") : Fails o read .mode (.fault (.unknownAngleUnit text))
  | precision {n : Int} (given : o.precision = some n) (range : ¬ (0 ≤ n ∧ n ≤ 15)) :
      Fails o read .precision (.fault (.badPrecision (toString n)))
  | script {path : String} (named : o.script = some path) (absent : read path = none) :
      Fails o read .script
        (.file ("Failed to open script " ++ path ++ ": " ++
          "No such file or directory (os error 2)"))

/-- `Base o read base`: the file that the options name says `base`; it is the default if they name
none. -/
inductive Base (o : Options) (read : String → Option (List UInt8)) : Config → Prop
  | default (unnamed : o.config = none) : Base o read {}
  | file {path text : String} {bytes : List UInt8} {config : Config}
      (named : o.config = some path) (present : read path = some bytes)
      (decoded : Text.decode? bytes = some text) (stated : Config.Stated text config)
      (range : config.precision.toNat ≤ 15) : Base o read config

/-- `Settled o base config`: the options override what `base` says, and come to `config`. -/
structure Settled (o : Options) (base config : Config) : Prop where
  angleUnit : config.angleUnit.name = o.mode.getD base.angleUnit.name
  precision : (config.precision.toNat : Int) = o.precision.getD base.precision.toNat
  strictNumbers : config.strictNumbers = true ↔ base.strictNumbers = true ∨ o.strict = true
  prompt : config.prompt = base.prompt
  echo : config.echo = true ↔ base.echo = true ∨ o.echo = true

variable {o : Options} {read : String → Option (List UInt8)} {failure : Failure}

/-- The options and the files leave no choice of a base. -/
theorem Base.unique {base base' : Config} (h : Base o read base) (h' : Base o read base') :
    base = base' := by
  cases h with
  | default unnamed =>
    cases h' with
    | default _ => rfl
    | file named => simp [unnamed] at named
  | file named present decoded stated range =>
    cases h' with
    | default unnamed => simp [unnamed] at named
    | file named' present' decoded' stated' range' =>
      obtain rfl := Option.some.inj (named.symm.trans named')
      obtain rfl := Option.some.inj (present.symm.trans present')
      obtain rfl := Option.some.inj (decoded.symm.trans decoded')
      exact stated.unique stated'

theorem name_injective : Function.Injective AngleUnit.name := by
  intro unit unit' h
  cases unit <;> cases unit' <;> first | rfl | (revert h; decide)

/-- The options and the base leave no choice of a config. -/
theorem Settled.unique {base config config' : Config} (h : Settled o base config)
    (h' : Settled o base config') : config = config' := by
  have hunit := name_injective (h.angleUnit.trans h'.angleUnit.symm)
  have hprecision : config.precision = config'.precision :=
    UInt32.toNat_inj.mp (Int.ofNat_inj.mp (h.precision.trans h'.precision.symm))
  have hstrict := Bool.eq_iff_iff.mpr (h.strictNumbers.trans h'.strictNumbers.symm)
  have hprompt := h.prompt.trans h'.prompt.symm
  have hecho := Bool.eq_iff_iff.mpr (h.echo.trans h'.echo.symm)
  obtain ⟨unit, p, strict, prompt, echo⟩ := config
  simp_all

/-- A failure before the session runs is reported with the exit code 1. -/
theorem Fails.code {check : Check} (h : Fails o read check failure) : failure.code = 1 := by
  cases h <;> rfl

/-! ## One check after the other -/

theorem baseConfig_of_fails (h : Fails o read .configFile failure) :
    baseConfig read o.config = .error failure := by
  cases h with
  | missing named absent => simp [baseConfig, Config.ofFile, named, absent]; rfl
  | notText named present invalid =>
    simp [baseConfig, Config.ofFile, named, present, invalid]; rfl
  | notConfig named present decoded unstated =>
    have hread := Config.ofText_of_none (Config.read?_eq_none_of_unstated unstated)
    simp [baseConfig, Config.ofFile, named, present, decoded, hread]
  | outside named present decoded stated range =>
    have hread := Config.ofText_of_outside (Config.stated_iff.mp stated) range
    simp [baseConfig, Config.ofFile, named, present, decoded, hread]

theorem baseConfig_of_base {base : Config} (h : Base o read base) :
    baseConfig read o.config = .ok base := by
  cases h with
  | default unnamed => rw [unnamed]; rfl
  | file named present decoded stated range =>
    have hread := Config.ofText_of_valid (Config.stated_iff.mp stated) range
    simp [baseConfig, Config.ofFile, named, present, decoded, hread]

theorem exists_base (h : ∀ f, ¬ Fails o read .configFile f) : ∃ base, Base o read base := by
  cases named : o.config with
  | none => exact ⟨_, .default named⟩
  | some path =>
    cases present : read path with
    | none => exact absurd (.missing named present) (h _)
    | some bytes =>
      cases decoded : Text.decode? bytes with
      | none => exact absurd (.notText named present decoded) (h _)
      | some text =>
        by_cases stated : ∃ config, Config.Stated text config
        · obtain ⟨config, stated⟩ := stated
          by_cases range : config.precision.toNat ≤ 15
          · exact ⟨config, .file named present decoded stated range⟩
          · exact absurd (.outside named present decoded stated (Nat.not_le.mp range)) (h _)
        · exact absurd (.notConfig named present decoded (not_exists.mp stated)) (h _)

theorem Base.precision_le {base : Config} (h : Base o read base) : base.precision.toNat ≤ 15 := by
  cases h with
  | default unnamed => decide
  | file named present decoded stated range => exact range

theorem mode_of_fails (h : Fails o read .mode failure) (unit : AngleUnit) :
    checked (o.mode.elim (.ok unit) AngleUnit.ofName) = .error failure := by
  cases h with
  | @mode text given degrees radians =>
    rw [given, Option.elim_some, AngleUnit.ofName, if_neg degrees, if_neg radians]
    rfl

theorem exists_mode (h : ∀ f, ¬ Fails o read .mode f) (unit : AngleUnit) :
    ∃ unit' : AngleUnit, unit'.name = o.mode.getD unit.name ∧
      checked (o.mode.elim (.ok unit) AngleUnit.ofName) = .ok unit' := by
  cases given : o.mode with
  | none => exact ⟨unit, rfl, rfl⟩
  | some text =>
    by_cases degrees : text = "degrees"
    · subst degrees
      exact ⟨.degrees, rfl, rfl⟩
    · by_cases radians : text = "radians"
      · subst radians
        exact ⟨.radians, rfl, rfl⟩
      · exact absurd (.mode given degrees radians) (h _)

theorem precision_of_fails (h : Fails o read .precision failure) (p : UInt32) :
    checked (o.precision.elim (.ok p) Settings.checkPrecision) = .error failure := by
  cases h with
  | @precision n given range =>
    rw [given, Option.elim_some, Settings.checkPrecision_of_outside range]
    rfl

theorem exists_precision (h : ∀ f, ¬ Fails o read .precision f) {p : UInt32}
    (hp : p.toNat ≤ 15) :
    ∃ p' : UInt32, p'.toNat ≤ 15 ∧ (p'.toNat : Int) = o.precision.getD p.toNat ∧
      checked (o.precision.elim (.ok p) Settings.checkPrecision) = .ok p' := by
  cases given : o.precision with
  | none => exact ⟨p, hp, rfl, rfl⟩
  | some n =>
    by_cases range : 0 ≤ n ∧ n ≤ 15
    · have hcheck : Settings.checkPrecision n = .ok (.ofNat n.toNat) := if_pos range
      obtain ⟨-, hn⟩ := Settings.checkPrecision_eq_ok.mp hcheck
      refine ⟨.ofNat n.toNat, by omega, hn, ?_⟩
      rw [Option.elim_some, hcheck]
      rfl
    · exact absurd (.precision given range) (h _)

theorem scriptBytes_of_fails (h : Fails o read .script failure) :
    o.scriptBytes read = .error failure := by
  cases h with
  | script named absent => simp [Options.scriptBytes, named, absent]; rfl

theorem exists_scriptBytes (h : ∀ f, ¬ Fails o read .script f) :
    ∃ script, o.scriptBytes read = .ok script ∧ (o.script = none → script = none) ∧
      ∀ path, o.script = some path → ∃ bytes, script = some bytes ∧ read path = some bytes := by
  cases named : o.script with
  | none => exact ⟨none, by simp [Options.scriptBytes, named], fun _ => rfl, nofun⟩
  | some path =>
    cases present : read path with
    | none => exact absurd (.script named present) (h _)
    | some bytes =>
      refine ⟨some bytes, by simp [Options.scriptBytes, named, present], nofun, ?_⟩
      rintro _ ⟨⟩
      exact ⟨bytes, rfl, present⟩

/-! ## All checks -/

/-- The config that the options and the file come to; there is one when the first three checks pass,
and its precision is valid. -/
theorem exists_settled (h : ∀ check ∈ Check.script.before, ∀ f, ¬ Fails o read check f) :
    ∃ base config, Base o read base ∧ Settled o base config ∧ config.precision.toNat ≤ 15 ∧
      o.toConfig read = .ok config := by
  obtain ⟨base, hbase⟩ := exists_base (h .configFile (by simp [Check.before]))
  obtain ⟨unit, hunit, hmode⟩ := exists_mode (h .mode (by simp [Check.before])) base.angleUnit
  obtain ⟨p, hp, hprecision, hcheck⟩ :=
    exists_precision (h .precision (by simp [Check.before])) hbase.precision_le
  let config : Config :=
    { base with
      angleUnit := unit
      precision := p
      strictNumbers := base.strictNumbers || o.strict
      echo := base.echo || o.echo }
  have hsettled : Settled o base config :=
    ⟨hunit, hprecision, Bool.or_eq_true_iff, rfl, Bool.or_eq_true_iff⟩
  refine ⟨base, config, hbase, hsettled, hp, ?_⟩
  unfold Options.toConfig
  rw [baseConfig_of_base hbase]
  refine (bind_of_ok hmode _).trans (bind_of_ok hcheck _)

/-- The first check that fails decides. -/
theorem startup_of_fails {check : Check} (h : Fails o read check failure)
    (first : ∀ earlier ∈ check.before, ∀ f, ¬ Fails o read earlier f) :
    startup o read = .error failure := by
  cases check with
  | configFile =>
    have hbase := baseConfig_of_fails h
    have hconfig : o.toConfig read = .error failure := bind_of_error hbase _
    exact bind_of_error hconfig _
  | mode =>
    obtain ⟨base, hbase⟩ := exists_base (first .configFile (by simp [Check.before]))
    have hconfig : o.toConfig read = .error failure :=
      (bind_of_ok (baseConfig_of_base hbase) _).trans
        (bind_of_error (mode_of_fails h base.angleUnit) _)
    exact bind_of_error hconfig _
  | precision =>
    obtain ⟨base, hbase⟩ := exists_base (first .configFile (by simp [Check.before]))
    obtain ⟨unit, -, hmode⟩ := exists_mode (first .mode (by simp [Check.before])) base.angleUnit
    have hconfig : o.toConfig read = .error failure :=
      (bind_of_ok (baseConfig_of_base hbase) _).trans
        ((bind_of_ok hmode _).trans (bind_of_error (precision_of_fails h base.precision) _))
    exact bind_of_error hconfig _
  | script =>
    obtain ⟨base, config, -, -, hprecision, hconfig⟩ := exists_settled first
    have hsession : checked (Session.new config clock) = .ok _ :=
      congrArg checked (Session.new_eq_ok_iff.mpr ⟨hprecision, rfl⟩)
    exact (bind_of_ok hconfig _).trans
      ((bind_of_ok hsession _).trans (bind_of_error (scriptBytes_of_fails h) _))

theorem startup_of_passes {config : Config} {session : Session}
    {script : Option (List UInt8)} (hconfig : o.toConfig read = .ok config)
    (hnew : Session.new config clock = .ok session) (hscript : o.scriptBytes read = .ok script) :
    startup o read = .ok (session, script) := by
  have hsession : checked (Session.new config clock) = .ok session := congrArg checked hnew
  exact (bind_of_ok hconfig _).trans ((bind_of_ok hsession _).trans (bind_of_ok hscript _))

/-- The program starts a session exactly when no check fails. -/
theorem isOk_startup_iff :
    (startup o read).isOk = true ↔ ∀ check f, ¬ Fails o read check f := by
  constructor
  · intro hok
    have hnone (check : Check) (first : ∀ earlier ∈ check.before, ∀ f, ¬ Fails o read earlier f)
        (f : Failure) : ¬ Fails o read check f := by
      intro hfails
      rw [startup_of_fails hfails first] at hok
      cases hok
    have hfile := hnone .configFile (by simp [Check.before])
    have hmode := hnone .mode (by simpa [Check.before] using hfile)
    have hprecision := hnone .precision (by simpa [Check.before] using ⟨hfile, hmode⟩)
    have hscript := hnone .script (by simpa [Check.before] using ⟨hfile, hmode, hprecision⟩)
    intro check
    cases check <;> assumption
  · intro hpass
    obtain ⟨base, config, -, -, hprecision, hconfig⟩ := exists_settled fun check _ => hpass check
    obtain ⟨script, hscript, -, -⟩ := exists_scriptBytes (hpass .script)
    rw [startup_of_passes hconfig (Session.new_eq_ok_iff.mpr ⟨hprecision, rfl⟩) hscript]
    rfl

theorem startup_eq_ok {session : Session} {script : Option (List UInt8)}
    (h : startup o read = .ok (session, script)) : o.scriptBytes read = .ok script := by
  obtain ⟨config, -, hconfig⟩ := bind_eq_ok.mp h
  obtain ⟨session', -, hsession⟩ := bind_eq_ok.mp hconfig
  obtain ⟨script', hscript, hpair⟩ := bind_eq_ok.mp hsession
  cases hpair
  exact hscript

theorem scriptBytes_of_named {path : String} {script : Option (List UInt8)}
    (named : o.script = some path) (h : o.scriptBytes read = .ok script) :
    ∃ bytes, script = some bytes := by
  cases present : read path with
  | none => simp [Options.scriptBytes, named, present] at h
  | some bytes =>
    simp [Options.scriptBytes, named, present] at h
    exact ⟨bytes, h.symm⟩

/-! ## The outcome -/

section

variable {args : List String} (h : parse {} args = .ok o)
include h

theorem outcome_of_error (hstartup : startup o read = .error failure) (input : List UInt8) :
    outcome args read input = { failure := some failure } := by
  simp [outcome, h, hstartup]

theorem outcome_of_ok {session : Session} {script : Option (List UInt8)}
    (hstartup : startup o read = .ok (session, script)) (input : List UInt8) :
    outcome args read input =
      { output := (session.run (script.getD input)).output
        failure := failureOf (session.run (script.getD input)).ending } := by
  simp [outcome, h, hstartup]

end

/-- What the program leaves behind, when its dialogue over some bytes is that of a session. -/
theorem exitCode_of_ending (output : String) {s : Session} {bytes : List UInt8} {ending : Ending}
    (h : ending = .invalidText ↔ s.MeetsBadLine bytes) (said : JsonFault) :
    let result : Outcome := { output, failure := failureOf ending }
    (s.MeetsBadLine bytes →
      result.exitCode = 1 ∧ result.errorText said = Failure.invalidText.message said ++ "\n") ∧
    (¬ s.MeetsBadLine bytes → result.exitCode = 0 ∧ result.errorText said = "") := by
  cases ending with
  | complete =>
    refine ⟨?_, fun _ => ⟨rfl, rfl⟩⟩
    intro hbad
    cases h.mpr hbad
  | invalidText => exact ⟨fun _ => ⟨rfl, rfl⟩, fun hgood => absurd (h.mp rfl) hgood⟩

/-- **The outcome of the program**, for all arguments that are taken as options, and whatever the
reader of JSON has to say against a config file.  The first check that fails gives the exit code 1
and its own words on the standard error, and nothing else is written.  If the first three checks
pass, the options, the file and the defaults come to a config from which there is a session,
whatever the clock, and the session has the settings and the manners of the config.  If the last
check passes too, the program writes what the dialogue of that session shows, over the script if the
options name one, whatever stands on the standard input, and else over the standard input.  The exit
code is then 0, whatever the faults of its lines, unless the session, still running, meets a line
that is not UTF-8; then it is 1. -/
theorem program_outcome {args : List String} (h : parse {} args = .ok o)
    (read : String → Option (List UInt8)) (input : List UInt8) (said : JsonFault) :
    let result := outcome args read input
    (∀ (check : Check) (failure : Failure), Fails o read check failure →
      (∀ earlier ∈ check.before, ∀ f, ¬ Fails o read earlier f) →
      result.output = "" ∧ result.exitCode = 1 ∧
        result.errorText said = failure.message said ++ "\n") ∧
    ((∀ check ∈ Check.script.before, ∀ f, ¬ Fails o read check f) →
      ∃ base config, Base o read base ∧ Settled o base config ∧
        ∀ clock, ∃ session, Session.new config clock = .ok session ∧
          session.Opened config clock ∧
          ((∀ f, ¬ Fails o read .script f) →
            ∃ bytes, (o.script = none → bytes = input) ∧
              (∀ path, o.script = some path → read path = some bytes) ∧
              result.output = (session.run bytes).output ∧
              (session.MeetsBadLine bytes → result.exitCode = 1 ∧
                result.errorText said = Failure.invalidText.message said ++ "\n") ∧
              (¬ session.MeetsBadLine bytes →
                result.exitCode = 0 ∧ result.errorText said = ""))) ∧
    ∀ other, o.script ≠ none → outcome args read other = result := by
  intro result
  refine ⟨?_, ?_, ?_⟩
  · intro check failure hfails first
    have hresult : result = { failure := some failure } :=
      outcome_of_error h (startup_of_fails hfails first) input
    rw [hresult]
    exact ⟨rfl, hfails.code, rfl⟩
  · intro hpass
    obtain ⟨base, config, hbase, hsettled, hprecision, hconfig⟩ := exists_settled hpass
    refine ⟨base, config, hbase, hsettled, ?_⟩
    intro clock
    obtain ⟨session, hnew⟩ : ∃ session, Session.new config clock = .ok session :=
      ⟨_, Session.new_eq_ok_iff.mpr ⟨hprecision, rfl⟩⟩
    obtain ⟨own, hown⟩ : ∃ own, Session.new config CommandLine.clock = .ok own :=
      ⟨_, Session.new_eq_ok_iff.mpr ⟨hprecision, rfl⟩⟩
    refine ⟨session, hnew, Session.opened_of_new hnew, ?_⟩
    intro hfile
    obtain ⟨script, hscript, hunnamed, hnamed⟩ := exists_scriptBytes hfile
    have hresult := outcome_of_ok h (startup_of_passes hconfig hown hscript) input
    -- the program has a clock of its own, which its output does not show
    obtain ⟨houtput, hending, -⟩ :=
      Session.run_of_sameButTimes (Session.sameButTimes_of_new hown hnew) (script.getD input)
    rw [houtput, hending] at hresult
    refine ⟨script.getD input, ?_, ?_, ?_, ?_⟩
    · intro hnone
      rw [hunnamed hnone]
      rfl
    · intro path hpath
      obtain ⟨bytes, rfl, hbytes⟩ := hnamed path hpath
      exact hbytes
    · exact congrArg Outcome.output hresult
    · have hcode := exitCode_of_ending (session.run (script.getD input)).output
        (session.run_ending (script.getD input)) said
      rw [← hresult] at hcode
      exact hcode
  · intro other hscript
    obtain ⟨path, hpath⟩ := Option.ne_none_iff_exists'.mp hscript
    show outcome args read other = outcome args read input
    cases hstartup : startup o read with
    | error failure => rw [outcome_of_error h hstartup, outcome_of_error h hstartup]
    | ok pair =>
      obtain ⟨session, script⟩ := pair
      obtain ⟨bytes, rfl⟩ := scriptBytes_of_named hpath (startup_eq_ok hstartup)
      rw [outcome_of_ok h hstartup, outcome_of_ok h hstartup, Option.getD_some, Option.getD_some]

/-- Three files: a config, a script with a wrong line and one that is not UTF-8, and a text that is
no config. -/
def deskFiles : String → Option (List UInt8)
  | "desk.json" => some "\x7b\"precision\":3,\"echo\":true\x7d".toUTF8.toList
  | "day.txt" =>
    some ("sin 1\nadd x 2\nsettings\n".toUTF8.toList ++ [255, 10] ++ "add 1 2\n".toUTF8.toList)
  | "odd.json" => some "[".toUTF8.toList
  | _ => none

/-- What is said against the text that is no config. -/
def oddFault : JsonFault := ⟨"EOF while parsing a list", 1, 1⟩

/-- The options override the file: a sine is taken in radians, to three places, a word that is no
number is refused, and lines are shown again; the line that is not UTF-8 ends the script.  A wrong
angle unit is found before a script that is not there, and a file that is no config before it. -/
theorem program_outcome_overriding :
    (let result :=
      outcome ["-c", "desk.json", "-mradians", "--strict", "--script=day.txt"] deskFiles []
     result.output = "calcshell\nType 'help' for available commands, 'exit' to quit\n" ++
        "> sin 1\nsin(1) = 0.841\n> add x 2\nError: Not a number: 'x'\n" ++
        "> settings\nAngle mode: radians\nPrecision: 3\n> " ∧
      result.exitCode = 1 ∧
      result.errorText oddFault = "Error: Custom \x7b kind: InvalidData, " ++
        "error: \"stream did not contain valid UTF-8\" \x7d\n") ∧
    (outcome ["-m", "gradians", "-s", "gone.txt"] deskFiles []).errorText oddFault =
      "Error: InvalidAngleMode(\"gradians\")\n" ∧
    (outcome ["-m", "gradians", "--config=odd.json"] deskFiles []).errorText oddFault =
      "Error: Error(\"EOF while parsing a list\", line: 1, column: 1)\n" := by
  refine ⟨?_, ?_, ?_⟩
  · let o : Options :=
      { config := some "desk.json", mode := some "radians", strict := true
        script := some "day.txt" }
    have hparse : parse {} ["-c", "desk.json", "-mradians", "--strict", "--script=day.txt"] =
        .ok o := by decide +kernel
    have hpass : ∀ check f, ¬ Fails o deskFiles check f :=
      isOk_startup_iff.mp (by decide +kernel)
    obtain ⟨base, config, hbase, hsettled, hsession⟩ :=
      (program_outcome hparse deskFiles [] oddFault).2.1 fun check _ => hpass check
    have hdecode : Text.decode? "\x7b\"precision\":3,\"echo\":true\x7d".toUTF8.toList =
        some "\x7b\"precision\":3,\"echo\":true\x7d" := by decide +kernel
    have hbase' : Base o deskFiles { precision := 3, echo := true } :=
      .file rfl rfl hdecode (Config.stated_iff.mpr (by decide +kernel)) (by decide)
    have hsettled' : Settled o { precision := 3, echo := true }
        { angleUnit := .radians, precision := 3, strictNumbers := true, echo := true } :=
      ⟨rfl, rfl, by decide, rfl, by decide⟩
    obtain rfl := hbase.unique hbase'
    obtain rfl := hsettled.unique hsettled'
    obtain ⟨session, hnew, -, hrun⟩ := hsession clock
    obtain ⟨bytes, -, hnamed, houtput, hbad, -⟩ := hrun (hpass .script)
    obtain rfl := Option.some.inj (hnamed "day.txt" rfl)
    obtain ⟨-, rfl⟩ := Session.new_eq_ok_iff.mp hnew
    obtain ⟨hcode, herror⟩ := hbad
      ⟨["sin 1".toUTF8.toList, "add x 2".toUTF8.toList, "settings".toUTF8.toList], [255],
        ["add 1 2".toUTF8.toList], by decide +kernel, by decide +kernel, by decide +kernel,
        by decide +kernel⟩
    exact ⟨houtput.trans (by decide +kernel), hcode, herror.trans (by decide +kernel)⟩
  · have hparse : parse {} ["-m", "gradians", "-s", "gone.txt"] =
        .ok { mode := some "gradians", script := some "gone.txt" } := by decide +kernel
    have hmode : Fails { mode := some "gradians", script := some "gone.txt" } deskFiles .mode
        (.fault (.unknownAngleUnit "gradians")) := .mode rfl (by decide) (by decide)
    refine ((program_outcome hparse deskFiles [] oddFault).1 _ _ hmode ?_).2.2.trans
      (by decide +kernel)
    -- no file is named, so only the default is the base
    intro earlier hearlier f hfails
    obtain rfl := List.mem_singleton.mp hearlier
    cases hfails <;> contradiction
  · have hparse : parse {} ["-m", "gradians", "--config=odd.json"] =
        .ok { mode := some "gradians", config := some "odd.json" } := by decide +kernel
    have hread : Config.read? "[" = none := by decide +kernel
    have hfile : Fails { mode := some "gradians", config := some "odd.json" } deskFiles .configFile
        .json := by
      have hdecode : Text.decode? "[".toUTF8.toList = some "[" := by decide +kernel
      refine .notConfig rfl rfl hdecode fun config hstated => ?_
      rw [Config.stated_iff.mp hstated] at hread
      cases hread
    exact ((program_outcome hparse deskFiles [] oddFault).1 _ _ hfile nofun).2.2.trans
      (by decide +kernel)

end CommandLine

end DeskCalculator
