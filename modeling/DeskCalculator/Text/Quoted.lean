import DeskCalculator.Text.Lowercase
import DeskCalculator.Text.PrintTable

/-!
# DeskCalculator.Text.Quoted — texts in quotes

A quoted text shows on one line what a text holds.  Quotes and backslashes have a backslash before
them, and characters that are not printed as they are have their code point in braces.
-/

namespace DeskCalculator.Text

/-- A character as it stands in quotes. -/
def quotedChar (c : Char) : List Char :=
  match c with
  | '\x00' => ['\\', '0']
  | '\t' => ['\\', 't']
  | '\r' => ['\\', 'r']
  | '\n' => ['\\', 'n']
  | '"' => ['\\', '"']
  | '\\' => ['\\', '\\']
  | c =>
    if inRanges unprintableRanges c then
      '\\' :: 'u' :: '\x7b' :: Nat.toDigits 16 c.toNat ++ ['\x7d']
    else [c]

/-- A text in quotes. -/
def quoted (text : String) : String := .ofList ('"' :: text.toList.flatMap quotedChar ++ ['"'])

end DeskCalculator.Text
