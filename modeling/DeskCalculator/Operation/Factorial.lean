import DeskCalculator.Fault
import DeskCalculator.Binary64.Integral

/-!
# DeskCalculator.Operation.Factorial — the product of the whole numbers up to a number

The product is rounded to binary64 after each factor.  It passes the largest finite number at the
factor 171, so 170 factors settle every argument.
-/

namespace DeskCalculator

/-- The product `r * i * (i + 1) * …` with factors up to `n`, ending early at an infinity; at most
`fuel` factors are taken. -/
def risingProduct (n : Float) : (fuel : Nat) → (i r : Float) → Float
  | 0, _, r => r
  | fuel + 1, i, r =>
    if i ≤ n then
      let r := r * i
      if r.isInf then r else risingProduct n fuel (i + 1) r
    else r

/-- The factorial of a whole number that is not below zero. -/
def factorial (n : Float) : Except Fault Float :=
  if n < 0 then .error (.negativeFactorial n)
  else if !Binary64.isWhole n then .error (.fractionalFactorial n)
  else .ok (risingProduct n 170 2 1)

end DeskCalculator
