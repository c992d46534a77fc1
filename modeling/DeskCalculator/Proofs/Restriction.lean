import DeskCalculator.Proofs.Arguments
import DeskCalculator.Proofs.Atomicity
import DeskCalculator.Proofs.Faults
import DeskCalculator.Proofs.Readings

/-!
# DeskCalculator.Proofs.Restriction — strict reading only restricts lenient reading

The strictness decides about the words that are taken for numbers, and about nothing else.  A line
is refused for the leftmost of its arguments that is not what it is taken for, before anything is
done, or it is read alike in both ways; and what is done for a reading does not depend on the
strictness any more.

* `Misreads`: the word for which strict reading refuses a line.
* `reading_strict_cases`: strict reading refuses a line for such a word, or reads it as lenient
  reading does.
* `strict_restricts_lenient`: what follows for the replies, the faults and the states.
-/

namespace DeskCalculator

/-- `Misreads line token`: the line names a standard command, with as many arguments as it takes,
and `token` is the leftmost of them that is not what it is taken for. -/
def Misreads (line token : String) : Prop :=
  ∃ name words command, splitLine line = some (name, words) ∧
    Catalogue.standard.find? name = some command ∧ words.length = command.arity ∧
    Misread (argumentKinds name) words token

/-- Whether the arguments of a line are all what they are taken for. -/
def Complete (line : String) : Prop :=
  ∀ name words, splitLine line = some (name, words) →
    ∀ p ∈ (argumentKinds name).zip words, p.1.Accepts p.2

theorem Complete.not_misreads {line token : String} (h : Complete line) :
    ¬ Misreads line token := by
  rintro ⟨name, words, command, hline, -, -, hmisread⟩
  obtain ⟨p, hp, refused⟩ := hmisread.exists_refused
  exact refused (h name words hline p hp)

/-! ## Reading the lines -/

section

variable {line token : String}

theorem reading_of_misreads (h : Misreads line token) :
    Catalogue.standard.reading .strict line = .refused (.notNumeric token) := by
  obtain ⟨name, words, command, hline, hfind, harity, hmisread⟩ := h
  obtain ⟨hmem, rfl⟩ := mem_standard_of_find? hfind
  rw [(standard_arguments command hmem).1] at hmisread
  rw [Catalogue.reading_of_known hline hfind]
  exact Command.reading_of_error harity (Action.read_of_misread (splitLine_unspaced hline) hmisread)

/-- **Strict reading refuses a line for one of its arguments, or it reads the line as lenient
reading does.** -/
theorem reading_strict_cases (line : String) :
    (∃ token, Misreads line token) ∨
      Catalogue.standard.reading .strict line = Catalogue.standard.reading .lenient line ∧
        ∀ token, Catalogue.standard.reading .strict line ≠ .refused (.notNumeric token) := by
  cases hline : splitLine line with
  | none =>
    refine .inr ?_
    simp [Catalogue.reading_of_blank hline]
  | some parts =>
    obtain ⟨name, words⟩ := parts
    cases hfind : Catalogue.standard.find? name with
    | none =>
      refine .inr ?_
      simp [Catalogue.reading_of_unknown hline hfind]
    | some command =>
      simp only [Catalogue.reading_of_known hline hfind]
      by_cases harity : words.length = command.arity
      · obtain ⟨hmem, rfl⟩ := mem_standard_of_find? hfind
        obtain ⟨hkinds, hlength⟩ := standard_arguments command hmem
        rcases accepted_or_misread (harity.trans hlength) with hall | ⟨token, hmisread⟩
        · obtain ⟨i, hi⟩ := Action.read_of_accepts (splitLine_unspaced hline) hall
          simp [Command.reading_of_ok harity (hi _)]
        · rw [← hkinds] at hmisread
          exact .inl ⟨token, _, words, command, hline, hfind, harity, hmisread⟩
      · have hrefused (s : Strictness) :
            command.reading ⟨words, s⟩ = .refused (.wrongUsage command.usage) :=
          Command.reading_of_length_ne harity
        simp [hrefused]

end

/-! ## Carrying out the lines -/

theorem Reading.outcome_ne_notNumeric {r : Reading} {help : String} {c : Calculator}
    (h : ∀ token, r ≠ .refused (.notNumeric token)) (token : String) :
    r.outcome help c ≠ .error (.notNumeric token) := by
  intro houtcome
  cases r with
  | blank => cases houtcome
  | refused fault =>
    cases houtcome
    exact h token rfl
  | instruction i =>
    have hfault := ((i.perform_faults help c).map some) _ houtcome
    cases hfault

namespace Interpreter

/-- The interpreter with another strictness. -/
def withStrictness (i : Interpreter) (strictness : Strictness) : Interpreter :=
  { i with strictness }

theorem answer_withStrictness (i : Interpreter) (s : Strictness)
    (step : Calculator × Except Fault Reply) :
    (i.withStrictness s).answer step = ((i.answer step).1.withStrictness s, (i.answer step).2) := by
  obtain ⟨c, outcome⟩ := step
  cases outcome with
  | ok reply =>
    simp only [answer]
    split <;> rfl
  | error fault => rfl

/-- What is done for a reading does not depend on the strictness. -/
theorem follow_withStrictness (i : Interpreter) (s : Strictness) (r : Reading) :
    (i.withStrictness s).follow r = ((i.follow r).1.withStrictness s, (i.follow r).2) := by
  cases r with
  | blank => rfl
  | refused fault => rfl
  | instruction instruction => exact i.answer_withStrictness s _

section

variable {i : Interpreter} {line token : String} (hcatalogue : i.catalogue = .standard)
  (hstrict : i.strictness = .strict)
include hcatalogue hstrict

theorem submit_of_misreads (h : Misreads line token) :
    i.submit line = (i, .error (.notNumeric token)) := by
  rw [submit_eq, hcatalogue, hstrict, reading_of_misreads h]
  rfl

theorem submit_of_not_misreads (h : ∀ token, ¬ Misreads line token) :
    (i.withStrictness .lenient).submit line =
        ((i.submit line).1.withStrictness .lenient, (i.submit line).2) ∧
      ∀ token, (i.submit line).2 ≠ .error (.notNumeric token) := by
  rcases reading_strict_cases line with ⟨token, hmisreads⟩ | ⟨hreading, hnumeric⟩
  · exact absurd hmisreads (h token)
  · constructor
    · rw [submit_eq, submit_eq, hstrict, hcatalogue, hreading]
      have hlenient : (i.withStrictness .lenient).catalogue = .standard := hcatalogue
      rw [hlenient]
      exact i.follow_withStrictness .lenient _
    · intro token
      rw [submit_snd, hcatalogue, hstrict]
      exact Reading.outcome_ne_notNumeric hnumeric token

end

/-- **Strict reading only restricts lenient reading.**  Where it succeeds, lenient reading gives the
same reply and comes to the same state; where it fails for another reason than a word that is no
number, lenient reading fails for the same reason; and it fails for such a word, with nothing done,
exactly when that word is the leftmost argument that is not what it is taken for.  On the lines
whose arguments are all complete the two agree. -/
theorem strict_restricts_lenient (c : Calculator) (running : Bool) (line : String) :
    let strict : Interpreter := { calculator := c, strictness := .strict, running }
    let lenient : Interpreter := { calculator := c, strictness := .lenient, running }
    let after := (strict.submit line).1
    let outcome := (strict.submit line).2
    (∀ answer, outcome = .ok answer →
      lenient.submit line = (after.withStrictness .lenient, .ok answer)) ∧
    (∀ fault, outcome = .error fault → (∀ token, fault ≠ .notNumeric token) →
      lenient.submit line = (after.withStrictness .lenient, .error fault)) ∧
    (∀ token, outcome = .error (.notNumeric token) ↔ Misreads line token) ∧
    (∀ token, outcome = .error (.notNumeric token) → after = strict) ∧
    (Complete line → lenient.submit line = (after.withStrictness .lenient, outcome)) := by
  intro strict lenient after outcome
  have hrefused : ∀ token, Misreads line token → outcome = .error (.notNumeric token) :=
    fun token h => congrArg Prod.snd (strict.submit_of_misreads rfl rfl h)
  have halike : (∀ token, ¬ Misreads line token) →
      lenient.submit line = (after.withStrictness .lenient, outcome) ∧
        ∀ token, outcome ≠ .error (.notNumeric token) :=
    strict.submit_of_not_misreads rfl rfl
  have hiff : ∀ token, outcome = .error (.notNumeric token) ↔ Misreads line token := by
    refine fun token => ⟨fun h => ?_, hrefused token⟩
    by_cases hsome : ∃ other, Misreads line other
    · obtain ⟨other, hother⟩ := hsome
      rw [hrefused other hother] at h
      cases h
      exact hother
    · exact absurd h ((halike (not_exists.mp hsome)).2 token)
  have hsame : (∀ token, outcome ≠ .error (.notNumeric token)) →
      lenient.submit line = (after.withStrictness .lenient, outcome) :=
    fun h => (halike fun token hm => h token (hrefused token hm)).1
  refine ⟨fun answer h => ?_, fun fault h hfault => ?_, hiff,
    fun token h => strict.submit_atomic line _ h, fun h => (halike fun _ => h.not_misreads).1⟩
  · rw [← h]
    exact hsame fun token hnumeric => by rw [h] at hnumeric; cases hnumeric
  · rw [← h]
    refine hsame fun token hnumeric => hfault token ?_
    rw [h] at hnumeric
    exact Except.error.inj hnumeric

/-- Strict reading refuses a unit behind a number, which lenient reading passes over; a sign is part
of the number for both. -/
theorem unit_refused_sign_taken :
    let c : Calculator := { clock := .still ⟨0, 0⟩ }
    let strict : Interpreter := { calculator := c, strictness := .strict, running := true }
    let lenient : Interpreter := { calculator := c, strictness := .lenient, running := true }
    Misreads "add +1 2kg" "2kg" ∧
      (strict.submit "add +1 2kg").2 = .error (.notNumeric "2kg") ∧
      (lenient.submit "add +1 2kg").2 = .ok (some { text := "add(1, 2) = 3" }) ∧
      (lenient.submit "prec +3").2 = .ok (some { text := "Precision set to 3" }) := by
  intro c strict lenient
  have hunit := strict_restricts_lenient c true "add +1 2kg"
  have hsign := strict_restricts_lenient c true "prec +3"
  have hrefused : (strict.submit "add +1 2kg").2 = .error (.notNumeric "2kg") := by decide +kernel
  have htaken : (strict.submit "prec +3").2 = .ok (some { text := "Precision set to 3" }) := by
    decide +kernel
  refine ⟨(hunit.2.2.1 "2kg").mp hrefused, hrefused, by decide +kernel, ?_⟩
  rw [hsign.1 _ htaken]

end Interpreter

end DeskCalculator
