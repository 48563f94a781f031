/-!
# Trees of TOML values

A TOML text says what stands in its tables piece by piece: under headers, under lists of tables,
and under dotted keys. What may still be added to a table depends on how the table came about, so a
table carries its `Origin`:

| origin   | came about by                     | a header may enter it | a dotted key may pass it |
|----------|-----------------------------------|-----------------------|--------------------------|
| `inline` | braces                            | no                    | no                       |
| `header` | a header of its own               | on the way to others  | no                       |
| `path`   | the header of a table below it    | yes, once             | yes, to tables below     |
| `dotted` | a dotted key                      | on the way to others  | yes                      |

`assign`, `enterTable` and `enterList` add one piece to a tree; each fails where the piece does not
fit what is there.
-/

namespace FileCatalog.Toml

/-- How a table came about. -/
inductive Origin where
  | inline
  | header
  | path
  | dotted
  deriving DecidableEq, Repr

/-- A calendar day. -/
structure Date where
  year : Nat
  month : Nat
  day : Nat
  deriving DecidableEq, Repr

/-- A time of day; the fraction of the second is given by its digits. -/
structure Time where
  hour : Nat
  minute : Nat
  second : Nat
  fraction : List Char
  deriving DecidableEq, Repr

/-- A number that is written with a fraction or an exponent, or by its name. -/
inductive Real where
  /-- The number `digits * 10 ^ exponent`, or its negative. -/
  | decimal (negative : Bool) (digits : Nat) (exponent : Int)
  | infinity (negative : Bool)
  | notANumber
  deriving DecidableEq, Repr

/-- A value. -/
inductive Value where
  | text (s : String)
  | integer (n : Int)
  | real (r : Real)
  | boolean (b : Bool)
  /-- A day, a time of day, or both; a moment of both may state its distance from universal time in
  minutes. -/
  | moment (date : Option Date) (time : Option Time) (offset : Option Int)
  | array (items : List Value)
  | table (origin : Origin) (members : List (String × Value))
  /-- A list of tables under one header, the last of which can still be added to. -/
  | tables (earlier : List (List (String × Value))) (last : List (String × Value))

/-- The keys of a table with their values. -/
abbrev Members := List (String × Value)

namespace Members

/-- The members with another value under a key that is there. -/
def replace (ms : Members) (key : String) (v : Value) : Members :=
  ms.map fun m => if m.1 = key then (key, v) else m

/-- The members with a value under a key that is not there. -/
def add (ms : Members) (key : String) (v : Value) : Option Members :=
  if (ms.lookup key).isSome then none else some (ms ++ [(key, v)])

/-- Whether a table of some origin can be passed by a header (`path`) or a dotted key. -/
def passes (way : Origin) : Origin → Bool
  | .inline => false
  | .header => way ≠ .dotted
  | .path => true
  | .dotted => true

/-- Changes the table at the end of a path. Tables that are not there come about with the origin
`way`; of a list of tables the last is entered. -/
def update (way : Origin) (change : Origin → Members → Option Members) :
    List String → Origin → Members → Option Members
  | [], origin, ms => change origin ms
  | key :: path, _, ms =>
    match ms.lookup key with
    | none => do
      let inner ← update way change path way []
      return ms ++ [(key, .table way inner)]
    | some (.table origin inner) => do
      guard (passes way origin)
      let inner ← update way change path origin inner
      return ms.replace key (.table origin inner)
    | some (.tables earlier last) => do
      let last ← update way change path .header last
      return ms.replace key (.tables earlier last)
    | some _ => none

/-- Gives a value to a key in the table that a dotted path names. -/
def assign (ms : Members) (path : List String) (key : String) (v : Value) : Option Members :=
  let give (origin : Origin) (ms : Members) : Option Members := do
    guard (path.isEmpty || origin = .dotted)
    ms.add key v
  update .dotted give path .header ms

/-- Gives a value to a dotted key below the table of a header. -/
def assignBelow (ms : Members) (header path : List String) (key : String) (v : Value) :
    Option Members :=
  update .path (fun _ inner => inner.assign path key v) header .header ms

/-- Enters the table that a header names. -/
def enterTable (ms : Members) (path : List String) (key : String) : Option Members :=
  let enter (_ : Origin) (ms : Members) : Option Members :=
    match ms.lookup key with
    | none => some (ms ++ [(key, .table .header [])])
    | some (.table .path inner) => some (ms.replace key (.table .header inner))
    | some _ => none
  update .path enter path .header ms

/-- Enters a new table of the list that a header names. -/
def enterList (ms : Members) (path : List String) (key : String) : Option Members :=
  let enter (_ : Origin) (ms : Members) : Option Members :=
    match ms.lookup key with
    | none => some (ms ++ [(key, .tables [] [])])
    | some (.tables earlier last) => some (ms.replace key (.tables (earlier ++ [last]) []))
    | some _ => none
  update .path enter path .header ms

end Members

end FileCatalog.Toml
