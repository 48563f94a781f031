import FileCatalog.Text.Digit
import FileCatalog.Toml.Parsing

/-!
# Quoted TOML texts

A text stands between double quotes, where a backslash escapes, or between single quotes, where
every character stands for itself. Three quotes in place of one let the text run over lines: a line
end right after the opening is not part of it, and every other line end counts as a line feed.

Inside three quotes one or two quotes are part of the text. Where more stand together the last
three close it, and there are at most two before them.
-/

namespace FileCatalog.Toml.Parser

/-- A number of exactly `n` hexadecimal digits. -/
def hexNumber (n : Nat) : Parser Nat := fun cs =>
  let digits := cs.take n
  if digits.length = n then do
    let values ← digits.mapM Text.hexValue?
    return (values.foldl (fun sum d => 16 * sum + d) 0, cs.drop n)
  else none

/-- A character that is written by its number in `n` digits. -/
def numbered (n : Nat) : Parser Char := do
  let code ← hexNumber n
  guard code.isValidChar
  return Char.ofNat code

/-- A character that is written with a backslash. -/
def escape : Parser Char := do
  char '\\'
  let c ← satisfy fun _ => true
  match c with
  | 'b' => return '\x08'
  | 't' => return '\t'
  | 'n' => return '\n'
  | 'f' => return '\x0c'
  | 'r' => return '\r'
  | '"' => return '"'
  | '\\' => return '\\'
  | 'u' => numbered 4
  | 'U' => numbered 8
  | _ => failure

/-- A character that stands for itself between double quotes. -/
def isPlain (c : Char) : Bool := isShown c && c ≠ '"' && c ≠ '\\'

/-- A character that stands for itself between single quotes. -/
def isLiteral (c : Char) : Bool := isShown c && c ≠ '\''

/-- A text between double quotes. -/
def basic : Parser String := do
  char '"'
  let cs ← many (satisfy isPlain <|> escape)
  char '"'
  return String.ofList cs

/-- A text between single quotes. -/
def verbatim : Parser String := do
  char '\''
  let cs ← takeWhile isLiteral
  char '\''
  return String.ofList cs

/-! ## Texts over lines -/

/-- A backslash that joins lines: it takes away the end of its line and all blanks and line ends
that follow. -/
def lineJoin : Parser Unit := do
  char '\\'
  blanks
  newline
  let _ ← many (newline <|> (do let _ ← takeSome isBlank))

/-- What the text between three double quotes is made of, quotes apart. -/
def basicPiece : Parser (List Char) :=
  takeSome isPlain <|> (do lineJoin; return []) <|> (do return [← escape]) <|>
    (do newline; return ['\n'])

/-- What the text between three single quotes is made of, quotes apart. -/
def verbatimPiece : Parser (List Char) :=
  takeSome isLiteral <|> (do newline; return ['\n'])

/-- The quotes that close a text over lines; those beyond three belong to the text. -/
def closing (quote : Char) : Parser (List Char) := fun cs =>
  let count := min (cs.takeWhile (· = quote)).length 5
  if count < 3 then none else some (List.replicate (count - 3) quote, cs.drop count)

/-- One or two quotes inside a text over lines, with what follows them. -/
def inner (quote : Char) (piece : Parser (List Char)) : Parser (List Char) := do
  let quotes ← takeSome (· = quote)
  guard (quotes.length < 3)
  return quotes ++ (← piece)

/-- A text between three quotes. -/
def overLines (quote : Char) (piece : Parser (List Char)) : Parser String := do
  literal [quote, quote, quote]
  let _ ← maybe newline
  let pieces ← many (piece <|> inner quote piece)
  let last ← closing quote
  return String.ofList (pieces.flatten ++ last)

/-- A text in any of the four forms. -/
def text : Parser String :=
  overLines '"' basicPiece <|> basic <|> overLines '\'' verbatimPiece <|> verbatim

end FileCatalog.Toml.Parser
