/-!
# Parsing characters

A `Parser` takes something off the front of a list of characters, or fails and takes nothing. The
blanks, comments and line ends of TOML are here, since every other part of the grammar has them.

A repetition is bounded by the number of characters: each turn takes at least one.
-/

namespace FileCatalog.Toml

/-- Takes a value off the front of characters, or fails. -/
abbrev Parser (α : Type) := StateT (List Char) Option α

namespace Parser

variable {α : Type}

/-- The first character, if it has a property. -/
def satisfy (p : Char → Bool) : Parser Char := fun
  | [] => none
  | c :: cs => if p c then some (c, cs) else none

/-- The given character. -/
def char (c : Char) : Parser Unit := do
  let _ ← satisfy (· = c)

/-- The given characters. -/
def literal : List Char → Parser Unit
  | [] => pure ()
  | c :: cs => do
    char c
    literal cs

/-- As many characters with a property as there are. -/
def takeWhile (p : Char → Bool) : Parser (List Char) := fun cs =>
  some (cs.takeWhile p, cs.dropWhile p)

/-- As many characters with a property as there are, and at least one. -/
def takeSome (p : Char → Bool) : Parser (List Char) := do
  let c ← satisfy p
  let cs ← takeWhile p
  return c :: cs

/-- Something that may be missing. -/
def maybe (p : Parser α) : Parser (Option α) := some <$> p <|> pure none

/-- Up to `n` turns, as many as succeed. -/
def upTo (p : Parser α) : Nat → Parser (List α)
  | 0 => pure []
  | n + 1 => (do
      let a ← p
      let as ← upTo p n
      return a :: as) <|> pure []

/-- As many turns as succeed. -/
def many (p : Parser α) : Parser (List α) := fun cs => upTo p cs.length cs

/-- One or more, with separators between them. -/
def separated (p : Parser α) (separator : Parser Unit) : Parser (List α) := do
  let a ← p
  let as ← many do
    separator
    p
  return a :: as

/-- The end of the characters. -/
def atEnd : Parser Unit := fun
  | [] => some ((), [])
  | _ :: _ => none

/-! ## Blanks and lines -/

/-- A blank or a tab. -/
def isBlank (c : Char) : Bool := c = ' ' || c = '\t'

/-- A character that can stand in a comment: any but the controls, and the tab. -/
def isShown (c : Char) : Bool := c = '\t' || (0x20 ≤ c.toNat && c.toNat ≠ 0x7F)

/-- Any number of blanks. -/
def blanks : Parser Unit := do
  let _ ← takeWhile isBlank

/-- A line feed, with a carriage return before it or without. -/
def newline : Parser Unit := char '\n' <|> literal ['\r', '\n']

/-- A comment, up to the end of its line. -/
def comment : Parser Unit := do
  char '#'
  let _ ← takeWhile isShown

/-- The end of a line, or of the text. -/
def lineEnd : Parser Unit := newline <|> atEnd

/-- The rest of a line that holds nothing more. -/
def lineRest : Parser Unit := do
  blanks
  let _ ← maybe comment
  lineEnd

/-- Blanks, line ends, and comments up to the end of their lines. -/
def spacing : Parser Unit := do
  let _ ← many <|
    (do let _ ← takeSome isBlank) <|> newline <|> (do comment; newline)

end Parser

end FileCatalog.Toml
