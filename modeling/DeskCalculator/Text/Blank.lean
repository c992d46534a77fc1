/-!
# DeskCalculator.Text.Blank — white space, and the words between it

White space is the property of that name of the Unicode standard: 25 characters.  The words of a
text are its longest runs without any.
-/

namespace DeskCalculator.Text

/-- Whether a character is white space. -/
def isBlank (c : Char) : Bool :=
  let n := c.toNat
  (9 ≤ n && n ≤ 13) || n == 0x20 || n == 0x85 || n == 0xA0 || n == 0x1680
    || (0x2000 ≤ n && n ≤ 0x200A) || n == 0x2028 || n == 0x2029 || n == 0x202F || n == 0x205F
    || n == 0x3000

/-- A text without the white space at its start. -/
def trimStart (cs : List Char) : List Char := cs.dropWhile isBlank

/-- A text without the white space at its start and at its end. -/
def trim (cs : List Char) : List Char := (trimStart (trimStart cs).reverse).reverse

/-- The pieces of a text between its single white space characters, empty ones included. -/
def pieces : List Char → List (List Char)
  | [] => [[]]
  | c :: cs =>
    match pieces cs with
    | [] => [[c]]
    | w :: ws => if isBlank c then [] :: w :: ws else (c :: w) :: ws

/-- The words of a text, in order. -/
def words (cs : List Char) : List (List Char) := (pieces cs).filter (!·.isEmpty)

end DeskCalculator.Text
