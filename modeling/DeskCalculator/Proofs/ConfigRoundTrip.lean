import DeskCalculator.Proofs.Precision
import DeskCalculator.Proofs.Records

/-!
# DeskCalculator.Proofs.ConfigRoundTrip — configs that are written and read back

A config is read back from its text as it was.  Fields may be taken out of the text, put in another
order and mixed with members of other names, and all of it may be spelled in another way: what is
read is the config with the defaults for the fields that are no longer there.  Only then is its
precision checked.

* `ofText_varied`: what is read from such a text, and what is made of it.
-/

namespace DeskCalculator

open Json (Value Member SpellsPieces SpellsString)
open Json.Value (Spells Varied)

theorem AngleUnit.ofJson?_toJson (unit : AngleUnit) : ofJson? unit.toJson = some unit := by
  cases unit <;> decide

theorem Json.Value.toUInt32?_ofNat (n : UInt32) : (ofNat n.toNat).toUInt32? = some n := by
  show (if digitsValue (Nat.toDigits 10 n.toNat) < Nat.pow 2 32 then
    some (UInt32.ofNat (digitsValue (Nat.toDigits 10 n.toNat))) else none) = some n
  rw [digitsValue_toDigits, if_pos n.toNat_lt, UInt32.ofNat_toNat]

namespace Config

/-- The fields of a config, with their values. -/
def fields (c : Config) : List (String × Value) :=
  [("angle_mode", c.angleUnit.toJson), ("precision", .ofNat c.precision.toNat),
    ("strict_numbers", .bool c.strictNumbers), ("prompt", .ofText c.prompt), ("echo", .bool c.echo)]

/-- A config with the defaults for some of its fields. -/
def without (c : Config) (removed : List String) : Config :=
  let default : Config := {}
  { angleUnit := if "angle_mode" ∈ removed then default.angleUnit else c.angleUnit
    precision := if "precision" ∈ removed then default.precision else c.precision
    strictNumbers := if "strict_numbers" ∈ removed then default.strictNumbers else c.strictNumbers
    prompt := if "prompt" ∈ removed then default.prompt else c.prompt
    echo := if "echo" ∈ removed then default.echo else c.echo }

/-- The text of a config. -/
def text (c : Config) : String := c.toJson.render

/-- What is made of a config that was read. -/
def validated (c : Config) : Except ConfigError Config :=
  if c.precision.toNat ≤ 15 then .ok c
  else .error (.fault (.badPrecision (toString c.precision.toNat)))

variable {c : Config} {removed : List String} {members : List (String × Value)} {text : String}

@[simp] theorem without_nil (c : Config) : c.without [] = c := rfl

theorem fields_nodup (c : Config) : (c.fields.map Prod.fst).Nodup := by
  show ["angle_mode", "precision", "strict_numbers", "prompt", "echo"].Nodup
  decide

theorem ofText_of_read {c' : Config} (h : read? text = some c') : ofText text = c'.validated := by
  unfold validated
  by_cases hc : c'.precision.toNat ≤ 15
  · rw [if_pos hc, ofText_of_valid h hc]
  · rw [if_neg hc, ofText_of_outside h (Nat.not_le.mp hc)]

theorem field_varied {α : Type} {read : Value → Option α} {v : Value} {a : α} (h : read v = some a)
    (default : α) (name : String) :
    field default read (if name ∈ removed then none else some v) =
      some (if name ∈ removed then default else a) := by
  by_cases hname : name ∈ removed
  · rw [if_pos hname, if_pos hname]
    rfl
  · rw [if_neg hname, if_neg hname]
    exact h

theorem ofJson?_varied (h : Varied c.fields removed members) :
    ofJson? (.record members) = some (c.without removed) := by
  have hfields : (Value.record members).fields?
      ["angle_mode", "precision", "strict_numbers", "prompt", "echo"] =
        some (c.fields.map fun m => if m.1 ∈ removed then none else some m.2) :=
    Json.Value.fields?_varied h c.fields_nodup
  have hbool (b : Bool) : (Value.bool b).toBool? = some b := rfl
  have htext (text : String) : (Value.ofText text).toText? = some text := rfl
  unfold ofJson?
  simp only [hfields, fields, List.map_cons, List.map_nil, Option.bind_eq_bind, Option.bind_some,
    field_varied (AngleUnit.ofJson?_toJson _), field_varied (Json.Value.toUInt32?_ofNat _),
    field_varied (hbool _), field_varied (htext _)]
  rfl

theorem writable_toJson (c : Config) : c.toJson.Writable := by
  refine .record ?_
  simp only [List.forall_mem_cons]
  exact ⟨.string _, Json.Value.writable_ofNat _, .bool _, .string _, .bool _, nofun⟩

theorem read?_varied (h : Varied c.fields removed members)
    (hspells : Spells (.record members) text.toList) : read? text = some (c.without removed) := by
  rw [read?, Json.Value.parse?_of_spells hspells]
  exact ofJson?_varied h

/-- **Configs that are read back**, for every config.  It is read back from its text, and accepted
just if its precision is valid.  From every text of an object that has the fields of the config
without the removed ones, and others of other names, in any order, what is read is the config with
the defaults for the removed fields, and it is that config which is accepted or not. -/
theorem ofText_varied (c : Config) :
    (read? c.text = some c ∧ ofText c.text = c.validated) ∧
    ∀ (removed : List String) (members : List (String × Value)) (text : String),
      Varied c.fields removed members → Spells (.record members) text.toList →
        read? text = some (c.without removed) ∧ ofText text = (c.without removed).validated := by
  constructor
  · have hspells : Spells (.record c.fields) c.text.toList := by
      rw [Config.text, Json.Value.render, String.toList_ofList]
      exact c.writable_toJson.spells
    have hread := read?_varied (.refl c.fields) hspells
    rw [without_nil] at hread
    exact ⟨hread, ofText_of_read hread⟩
  · intro removed members text hvaried hspells
    have hread := read?_varied hvaried hspells
    exact ⟨hread, ofText_of_read hread⟩

/-- A config with a quote, a backslash, a control character and a character of two units in its
prompt, and with a precision that is not valid. -/
def oddConfig : Config :=
  { angleUnit := .radians, precision := 4294967295, strictNumbers := true, prompt := "\"\\\x01😀" }

/-- What stands in a text beside the fields: a number that is too large, and half of a surrogate
pair. -/
def oddValue : Value :=
  .array [.number ⟨none, .decimal ['1'] none (some ⟨false, none, ['9', '9', '9']⟩)⟩, .string none]

theorem oddValue_spelled : Spells oddValue "[1e999,\"\\ud800\"]".toList := by
  have hhuge : Spells (.number ⟨none, .decimal ['1'] none (some ⟨false, none, ['9', '9', '9']⟩)⟩)
      ['1', 'e', '9', '9', '9'] :=
    .number (by simp [Numeral.WellFormed, Numeral.AllDigits]) rfl
  have hpieces : SpellsPieces [.unit 0xD800] ['\\', 'u', 'd', '8', '0', '0'] := .unit rfl .nil
  have hhalf : Spells (.string none) ['"', '\\', 'u', 'd', '8', '0', '0', '"'] :=
    .string (.quoted hpieces)
  have hitems : ∀ i ∈ [(_, _), (_, _)], Spells i.1 i.2 :=
    List.forall_mem_cons.mpr ⟨hhuge, List.forall_mem_singleton.mpr hhalf⟩
  exact Spells.array hitems

/-- The prompt can be written with UTF-16 units, two of them for its last character. -/
theorem oddPrompt_spelled :
    SpellsString (some oddConfig.prompt) "\"\\u0022\\\\\\u0001\\ud83d\\uDE00\"".toList := by
  have hpieces : SpellsPieces
      [.unit 0x22, .char '\\', .unit 1, .unit 0xD83D, .unit 0xDE00]
      "\\u0022\\\\\\u0001\\ud83d\\uDE00".toList :=
    .unit rfl (.escape rfl (.unit rfl (.unit rfl (.unit rfl .nil))))
  exact .quoted hpieces

/-- Two fields of the config, behind a member that is none. -/
def oddMembers : List Member :=
  [⟨some "seen", oddValue, Value.stringChars (some "seen"),
      [' '] ++ "[1e999,\"\\ud800\"]".toList ++ ['\n']⟩,
    ⟨some "prompt", .ofText oddConfig.prompt, Value.stringChars (some "prompt"),
      "\"\\u0022\\\\\\u0001\\ud83d\\uDE00\"".toList⟩,
    ⟨some "angle_mode", .ofText "radians", Value.stringChars (some "angle_mode"),
      Value.stringChars (some "radians")⟩]

/-- The text of these members. -/
def oddText : String :=
  "\x7b\"seen\": [1e999,\"\\ud800\"]\n,\"prompt\":\"\\u0022\\\\\\u0001\\ud83d\\uDE00\"," ++
    "\"angle_mode\":\"radians\"\x7d"

/-- The invalid precision is refused.  In another text it is taken out, and there are escapes in the
prompt, and a member that is no field, with a number that is too large and half of a surrogate pair
in it. -/
theorem ofText_varied_oddConfig :
    ofText oddConfig.text = .error (.fault (.badPrecision "4294967295")) ∧
    ofText oddText = .ok { angleUnit := .radians, prompt := oddConfig.prompt } := by
  obtain ⟨⟨-, hwhole⟩, hparts⟩ := ofText_varied oddConfig
  refine ⟨hwhole, ?_⟩
  have hvaried : Varied oddConfig.fields ["precision", "strict_numbers", "echo"]
      [("seen", oddValue), ("prompt", .ofText oddConfig.prompt),
        ("angle_mode", .ofText "radians")] :=
    .intro [("seen", oddValue)] (by decide) (List.reverse_perm _).symm
  have hnames : ∀ m ∈ oddMembers, Json.SpellsName m.name m.nameText := by
    simp only [oddMembers, List.forall_mem_cons]
    exact ⟨Json.Value.spellsName_written _, Json.Value.spellsName_written _,
      Json.Value.spellsName_written _, nofun⟩
  have hvalues : ∀ m ∈ oddMembers, Spells m.value m.valueText := by
    simp only [oddMembers, List.forall_mem_cons]
    exact ⟨.padded (by decide) (by decide) oddValue_spelled, .string oddPrompt_spelled,
      .string (Json.spellsString_quote "radians"), nofun⟩
  have htext : oddText.toList =
      '\x7b' :: (Json.separated (oddMembers.map Member.chars) ++ ['\x7d']) := by decide +kernel
  have hspells := Spells.object hnames hvalues
  rw [← htext] at hspells
  exact (hparts _ _ _ hvaried hspells).2

end Config

end DeskCalculator
