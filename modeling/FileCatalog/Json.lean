/-!
# JSON text

A `Json` value is written in two ways: on one line without blanks (`compact`), or spread over lines
with two blanks of indentation for each level (`spread`). The two differ in what sets the parts of
a value apart, which is their `Json.Style`. Writing goes from left to right. A key that is no text
cannot be written, so the writing breaks off there; what stands before it has been written already.
`Writing` holds both: the text that was written, and whether it is the whole.
-/

namespace FileCatalog

/-- A value in JSON. The keys of an object are values themselves; only texts can be written. -/
inductive Json where
  | number (n : Int)
  | text (s : String)
  | array (items : List Json)
  | object (members : List (Json × Json))

/-- What was written of a value. -/
structure Writing where
  /-- The text, up to where the writing broke off. -/
  text : List Char
  /-- Whether the text is the whole. -/
  isWhole : Bool
  deriving DecidableEq, Repr

namespace Writing

/-- A text that is written whole. -/
def chars (cs : List Char) : Writing := ⟨cs, true⟩

/-- A text that is written whole. -/
def string (s : String) : Writing := chars s.toList

/-- The writing that breaks off at once. -/
def broken : Writing := ⟨[], false⟩

/-- One writing after another; the second is written if the first is whole. -/
def followedBy (a b : Writing) : Writing :=
  if a.isWhole then ⟨a.text ++ b.text, b.isWhole⟩ else a

instance : Append Writing := ⟨followedBy⟩

/-- Writings in turn, as far as they are whole. -/
def all (ws : List Writing) : Writing := ws.foldr followedBy (chars [])

end Writing

namespace Json

/-- The hexadecimal number of a character below U+0100, in four digits. -/
def fourDigits (c : Char) : List Char :=
  ['0', '0', Nat.digitChar (c.toNat / 16), Nat.digitChar (c.toNat % 16)]

/-- How a character is written inside a text: the quote, the backslash and the controls are
escaped, everything else stands for itself. -/
def escapedChar (c : Char) : List Char :=
  match c with
  | '"' => ['\\', '"']
  | '\\' => ['\\', '\\']
  | '\x08' => ['\\', 'b']
  | '\x0c' => ['\\', 'f']
  | '\n' => ['\\', 'n']
  | '\r' => ['\\', 'r']
  | '\t' => ['\\', 't']
  | c => if c.toNat < 0x20 then ['\\', 'u'] ++ fourDigits c else [c]

/-- A text between quotes. -/
def quoted (s : String) : List Char := '"' :: s.toList.flatMap escapedChar ++ ['"']

/-- A key, if it is a text. -/
def writeKey : Json → Writing
  | .text s => .chars (quoted s)
  | _ => .broken

/-! ## Writing -/

/-- How the parts of an array or an object are set apart. -/
structure Style where
  /-- What stands before a part, and before the bracket that closes a level. -/
  gap : Nat → List Char
  /-- What stands between a key and its value. -/
  colon : List Char

namespace Style

/-- All on one line, without blanks. -/
def line : Style where
  gap _ := []
  colon := [':']

/-- Each part on a line of its own, behind two blanks for each level. -/
def lines : Style where
  gap level := '\n' :: List.replicate (2 * level) ' '
  colon := [':', ' ']

end Style

mutual

/-- A value that begins at a level. -/
def write (style : Style) (level : Nat) : Json → Writing
  | .number n => .string (toString n)
  | .text s => .chars (quoted s)
  | .array [] => .string "[]"
  | .array (item :: items) =>
    .chars ('[' :: style.gap (level + 1)) ++ write style (level + 1) item ++
      writeItems style (level + 1) items ++ .chars (style.gap level ++ [']'])
  | .object [] => .string "\x7b\x7d"
  | .object (member :: members) =>
    .chars ('\x7b' :: style.gap (level + 1)) ++ writeMember style (level + 1) member ++
      writeMembers style (level + 1) members ++ .chars (style.gap level ++ ['\x7d'])

/-- The items of an array after the first. -/
def writeItems (style : Style) (level : Nat) : List Json → Writing
  | [] => .chars []
  | item :: items =>
    .chars (',' :: style.gap level) ++ write style level item ++ writeItems style level items

/-- A key and its value. -/
def writeMember (style : Style) (level : Nat) : Json × Json → Writing
  | (key, value) => writeKey key ++ .chars style.colon ++ write style level value

/-- The members of an object after the first. -/
def writeMembers (style : Style) (level : Nat) : List (Json × Json) → Writing
  | [] => .chars []
  | member :: members =>
    .chars (',' :: style.gap level) ++ writeMember style level member ++
      writeMembers style level members

end

/-- A value on one line. -/
def compact (v : Json) : Writing := write .line 0 v

/-- A value over lines. -/
def spread (v : Json) : Writing := write .lines 0 v

end Json

end FileCatalog
