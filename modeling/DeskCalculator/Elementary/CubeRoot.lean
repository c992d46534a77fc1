import DeskCalculator.Binary64.Parts

/-!
# DeskCalculator.Elementary.CubeRoot — the real cube root

The root of `m * 2 ^ q` is taken of a multiple of `m` with at least 180 binary digits, so that its
whole part has 60.  One more digit below it says whether anything was cut off; the result is then
the binary64 number nearest to the exact root.
-/

namespace DeskCalculator.Elementary

open Binary64

/-- The largest `c + d`, `d < 2 ^ bits`, whose cube is at most `n`, if `c` is one. -/
def cubeRootFrom (n : Nat) : (bits : Nat) → (c : Nat) → Nat
  | 0, c => c
  | bits + 1, c =>
    let d := c + Nat.pow 2 bits
    cubeRootFrom n bits (if d * d * d ≤ n then d else c)

/-- The whole part of the cube root of `n`. -/
def cubeRootFloor (n : Nat) : Nat := cubeRootFrom n (n.log2 / 3 + 1) 0

/-- The real cube root; a zero, an infinity and NaN are their own. -/
def cubeRoot (x : Float) : Float :=
  match parts x with
  | .finite s m q _ =>
    let shift : Int := 180 + (q - 180) % 3
    let n := m * Nat.pow 2 shift.toNat
    let c := cubeRootFloor n
    nearest s (2 * c + if c * c * c = n then 0 else 1) ((q - shift) / 3 - 1)
  | _ => x

end DeskCalculator.Elementary
