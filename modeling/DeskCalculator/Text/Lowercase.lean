import DeskCalculator.Text.CaseTables

/-!
# DeskCalculator.Text.Lowercase — texts in lower case

The mapping is that of the Unicode standard.  It looks at one character at a time, except that a
capital sigma becomes a final sigma at the end of a word: when a cased character comes before it
and none after it, those that are ignored in case apart.  The capital I with a dot becomes two
characters.
-/

namespace DeskCalculator.Text

/-- Whether a character lies in one of some ranges. -/
def inRanges (ranges : List (Nat × Nat)) (c : Char) : Bool :=
  ranges.any fun (first, last) => decide (first ≤ c.toNat ∧ c.toNat ≤ last)

/-- Whether a run has a character. -/
def CaseRun.contains (r : CaseRun) (n : Nat) : Bool :=
  decide (r.first ≤ n ∧ n ≤ r.last) && (n - r.first) % r.stride == 0

/-- The lower case of a character by itself. -/
def lowerChar (c : Char) : List Char :=
  if c = '\u0130' then ['i', '\u0307']
  else
    match caseRuns.find? (·.contains c.toNat) with
    | some r => [.ofNat (c.toNat + r.shift).toNat]
    | none => [c]

/-- Whether a cased character comes next, when those that are ignored in case are passed over. -/
def casedNext (cs : List Char) : Bool :=
  match cs.dropWhile (inRanges caseIgnorableRanges) with
  | c :: _ => inRanges casedRanges c
  | [] => false

/-- The lower case of a text that comes after `before`, which is given backward. -/
def lowerAfter (before : List Char) : List Char → List Char
  | [] => []
  | c :: cs =>
    let lower :=
      if c = 'Σ' then if casedNext before && !casedNext cs then ['ς'] else ['σ']
      else lowerChar c
    lower ++ lowerAfter (c :: before) cs

/-- The lower case of a text. -/
def lowercase (cs : List Char) : List Char := lowerAfter [] cs

end DeskCalculator.Text
