import FileCatalog.Record.Json
import FileCatalog.Store.Records

/-!
# Admin commands

The four commands of the admin tool as functions on a store: what each prints, what ended it
early, and the store after it. Commands read the table as it is committed; only `flush` touches the
store, and it changes no entry.

What is printed before a failure stays printed. `dump` writes one record to a line, so a failure at
a value that is no record leaves whole lines; a record that cannot be written to its end leaves the
line begun.
-/

namespace FileCatalog.Admin

/-- What the tool is asked to do with a store. -/
inductive Command where
  /-- Shows the log positions, the root directory and the size of each collection. -/
  | stat
  /-- Prints every record of a collection. -/
  | dump (c : Collection)
  /-- Prints one inode. -/
  | getInode (number : UInt64)
  /-- Makes every commit durable. -/
  | flush
  deriving DecidableEq, Repr

/-- What ends a command early. -/
inductive Fault where
  /-- The store refuses. -/
  | store (e : StoreError)
  /-- A record has a key that is no text. -/
  | keyNotText
  deriving DecidableEq, Repr

/-- The wording of the fault. -/
def Fault.message : Fault → String
  | .store e => e.message
  | .keyNotText => "key must be a string"

/-- What a command has printed, and what ended it early. -/
structure Output where
  text : String := ""
  fault : Option Fault := none
  deriving DecidableEq, Repr

namespace Output

/-- The output of a command that printed and then met the result of an operation. -/
def after {α : Type} (text : String) (result : Except StoreError α) (next : α → Output) : Output :=
  match result with
  | .ok a =>
    let out := next a
    { out with text := text ++ out.text }
  | .error e => { text, fault := some (.store e) }

end Output

/-! ## The state of a store -/

/-- A line of a listing: a label, padded, and what it stands for. -/
def labelled (label value : String) : String :=
  let label := label ++ ":"
  label ++ String.ofList (List.replicate (14 - label.length) ' ') ++ " " ++ value ++ "\n"

/-- What is told about the root directory. -/
def rootLine : Except StoreError Inode → Except StoreError String
  | .ok root => .ok (labelled "root" s!"{root.fileType.text} (nlink {root.linkCount.toNat})")
  | .error e => if e.isNotFound then .ok (labelled "root" "missing") else .error e

/-- Shows the state of a store. -/
def stat (s : Store) : Output :=
  .after "" s.snapshot fun view =>
  .after (labelled "path" s.directory ++ labelled "apply index" (toString s.applyIndex.toNat))
    s.persistedIndex fun persisted =>
  .after (labelled "persisted" (toString persisted.toNat)) (rootLine (s.get .inode Inode.root))
    fun root =>
  { text := root ++
      String.join (Collection.all.map fun c => labelled c.name (toString (view.count c))) }

/-! ## Records -/

/-- Prints a record on a line of its own. -/
def dumpRecord (c : Collection) : Scan.Visitor String c.Record (ScanFault Fault) :=
  fun text r =>
    let line := (c.toJson r).compact
    let text := text ++ String.ofList line.text
    if line.isWhole then (text ++ "\n", .more) else (text, .fail (.visitor .keyNotText))

/-- Prints every record of a collection, by ascending key. -/
def dump (s : Store) (c : Collection) : Output :=
  .after "" s.snapshot fun view =>
    match view.scan c (dumpRecord c) "" with
    | (text, none) => { text }
    | (text, some (.store e)) => { text, fault := some (.store e) }
    | (text, some (.visitor fault)) => { text, fault := some fault }

/-- Prints one inode over lines. -/
def getInode (s : Store) (number : UInt64) : Output :=
  .after "" (s.get .inode number) fun i =>
    { text := String.ofList (Inode.toJson i).spread.text ++ "\n" }

/-- Performs a command; the result also tells the store after it. -/
def Command.run (s : Store) : Command → Store × Output
  | .stat => (s, Admin.stat s)
  | .dump c => (s, Admin.dump s c)
  | .getInode number => (s, Admin.getInode s number)
  | .flush =>
    match s.flush with
    | .ok s => (s, {})
    | .error e => (s, { fault := some (.store e) })

end FileCatalog.Admin
