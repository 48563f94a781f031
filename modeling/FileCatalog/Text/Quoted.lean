import FileCatalog.Text.Combining
import FileCatalog.Text.Unprintable

/-!
# Quoted text

A text inside a message stands between double quotes, on one line, and shows each of its
characters. The quote, the backslash and four controls are written with a backslash and a letter;
any other character that would not show, or would join its neighbour, is written by its number in
hexadecimal. Everything else stands for itself.
-/

namespace FileCatalog.Text

/-- A character written by its number, in the least number of lower-case hexadecimal digits. -/
def numbered (c : Char) : List Char :=
  ['\\', 'u', '{'] ++ Nat.toDigits 16 c.toNat ++ ['}']

/-- How a character is written between quotes. -/
def quotedChar (c : Char) : List Char :=
  match c with
  | '\x00' => ['\\', '0']
  | '\t' => ['\\', 't']
  | '\r' => ['\\', 'r']
  | '\n' => ['\\', 'n']
  | '"' => ['\\', '"']
  | '\\' => ['\\', '\\']
  | c => if isCombining c || isUnprintable c then numbered c else [c]

/-- A text between quotes. -/
def quoted (s : String) : String :=
  String.ofList ('"' :: s.toList.flatMap quotedChar ++ ['"'])

end FileCatalog.Text
