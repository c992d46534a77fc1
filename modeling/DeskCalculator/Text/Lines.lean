/-!
# DeskCalculator.Text.Lines — the lines of a byte stream

A line ends at a line feed, which does not belong to it, and neither does one carriage return before
it.  What stands behind the last line feed is a line too, unless it is empty, and keeps all of its
bytes.  A line has a text when its bytes are UTF-8.
-/

namespace DeskCalculator.Text

/-- The bytes of a line, given backward, without a carriage return at its end. -/
def lineOfReverse : List UInt8 → List UInt8
  | 13 :: bytes => bytes.reverse
  | bytes => bytes.reverse

/-- The lines of a byte stream of which the first one already has the bytes `start`, backward. -/
def linesFrom (start : List UInt8) : List UInt8 → List (List UInt8)
  | [] => if start.isEmpty then [] else [start.reverse]
  | b :: bytes =>
    if b = 10 then lineOfReverse start :: linesFrom [] bytes else linesFrom (b :: start) bytes

/-- The lines of a byte stream. -/
def lines (bytes : List UInt8) : List (List UInt8) := linesFrom [] bytes

/-- The text of some bytes, if they are UTF-8. -/
def decode? (bytes : List UInt8) : Option String := String.fromUTF8? ⟨bytes.toArray⟩

end DeskCalculator.Text
