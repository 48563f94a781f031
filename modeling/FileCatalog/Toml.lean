import FileCatalog.Toml.Numeral
import FileCatalog.Toml.Quoted
import FileCatalog.Toml.Tree

/-!
# TOML texts

`Toml.parse` reads a text into the members of its root table. The text is a sequence of lines: a
header opens a table, a header in double brackets opens the next table of a list, and a key with a
value adds to the table that is open.

Two bounds keep texts shallow: a dotted key has fewer than 80 parts, and arrays and braces nest
less than 80 deep.
-/

namespace FileCatalog.Toml

/-- What the number of parts of a dotted key, and the depth of nesting, stay below. -/
def depthLimit : Nat := 80

/-- What a line says. -/
inductive Line where
  /-- Nothing. -/
  | empty
  /-- A table is opened. -/
  | table (path : List String) (key : String)
  /-- A further table of a list is opened. -/
  | list (path : List String) (key : String)
  /-- A key has a value. -/
  | assign (path : List String) (key : String) (v : Value)

namespace Parser

/-! ## Keys -/

/-- A character of a key that needs no quotes. -/
def isBare (c : Char) : Bool := c.isAlphanum || c = '-' || c = '_'

/-- One part of a key. -/
def keyPart : Parser String :=
  basic <|> verbatim <|> (do return String.ofList (← takeSome isBare))

/-- A dotted key: the parts before the last, and the last. -/
def key : Parser (List String × String) := do
  let part : Parser String := do
    blanks
    let s ← keyPart
    blanks
    return s
  let parts ← separated part (char '.')
  guard (parts.length < depthLimit)
  match parts.getLast? with
  | some last => return (parts.dropLast, last)
  | none => failure

/-! ## Values -/

/-- A value without parts. -/
def scalar : Parser Value :=
  (do return .text (← text)) <|> numeral <|>
    (do literal ['t', 'r', 'u', 'e']; return .boolean true) <|>
    (do literal ['f', 'a', 'l', 's', 'e']; return .boolean false)

/-- Values between brackets; a comma may follow the last. -/
def array (item : Parser Value) : Parser Value := do
  let spaced : Parser Value := do
    spacing
    let v ← item
    spacing
    return v
  char '['
  let items ← (do
    let items ← separated spaced (char ',')
    let _ ← maybe (char ',')
    return items) <|> pure []
  spacing
  char ']'
  return .array items

/-- A dotted key and its value. -/
def pair (value : Parser Value) : Parser ((List String × String) × Value) := do
  let k ← key
  char '='
  blanks
  return (k, ← value)

/-- Keys and values between braces, on one line; no comma follows the last. -/
def braces (item : Parser Value) : Parser Value := do
  let spaced := do
    let p ← pair item
    blanks
    return p
  char '\x7b'
  let pairs ← separated spaced (char ',') <|> pure []
  blanks
  char '\x7d'
  let members ← StateT.lift <|
    pairs.foldlM (fun (ms : Members) p => ms.assign p.1.1 p.1.2 p.2) []
  return .table .inline members

/-- A value with at most `depth` brackets and braces around each other. -/
def value : Nat → Parser Value
  | 0 => scalar
  | depth + 1 => scalar <|> array (value depth) <|> braces (value depth)

/-! ## Lines -/

/-- A header in double brackets. -/
def listHeader : Parser Line := do
  literal ['[', '[']
  let (path, last) ← key
  literal [']', ']']
  lineRest
  return .list path last

/-- A header. -/
def tableHeader : Parser Line := do
  char '['
  let (path, last) ← key
  char ']'
  lineRest
  return .table path last

/-- A line with something on it, or its line end. -/
def line : Parser Line := do
  let content ←
    (do comment; lineEnd; return .empty) <|> listHeader <|> tableHeader <|>
    (do newline; return .empty) <|>
    (do
      let ((path, last), v) ← pair (value (depthLimit - 1))
      lineRest
      return .assign path last v)
  blanks
  return content

/-- All lines of a text; a byte order mark may stand before them. -/
def lines : Parser (List Line) := do
  let _ ← maybe (char '\uFEFF')
  blanks
  let ls ← many line
  atEnd
  return ls

end Parser

/-! ## Texts -/

/-- The tables that are read so far, and the path of the open one. -/
structure Reading where
  root : Members := []
  header : List String := []

/-- Takes in what a line says. -/
def Reading.add (r : Reading) : Line → Option Reading
  | .empty => some r
  | .table path key => do
    return ⟨← r.root.enterTable path key, path ++ [key]⟩
  | .list path key => do
    return ⟨← r.root.enterList path key, path ++ [key]⟩
  | .assign path key v => do
    return { r with root := ← r.root.assignBelow r.header path key v }

/-- The members of the root table of a text. -/
def parse (text : String) : Option Members := do
  let (lines, _) ← Parser.lines text.toList
  let reading ← lines.foldlM Reading.add {}
  return reading.root

end FileCatalog.Toml
