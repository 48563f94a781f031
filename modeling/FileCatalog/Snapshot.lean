import FileCatalog.Record.Layout
import FileCatalog.Scan

/-!
# Snapshots

A snapshot is the table as it was committed when the snapshot was taken. Every later change of the
store makes a table of its own and leaves this one as it is.

A snapshot remembers the directory it was taken from, since its being there keeps the files of that
directory locked.
-/

namespace FileCatalog

/-- The log position in eight octets, the most significant first. -/
def applyIndexOctets (index : UInt64) : Bytes := Bytes.bigEndian 8 index.toNat

/-- The log position that octets store; there must be eight of them. -/
def applyIndexOf (octets : Bytes) : Except StoreError UInt64 :=
  if octets.length = 8 then .ok (UInt64.ofNat (Bytes.ofBigEndian octets))
  else .error (.corruptApplyIndex octets.length)

/-- The log position that a table holds; zero if it holds none. -/
def Table.applyIndex (t : Table) : Except StoreError UInt64 :=
  match t.get? Key.applyIndex with
  | some octets => applyIndexOf octets
  | none => .ok 0

/-- The values from one key to another, both included, in the order of the keys. -/
def Table.valuesIn (t : Table) (first last : Bytes) : List Bytes :=
  (t.range first last).map (·.2)

/-- The committed table of a store at one moment. -/
structure Snapshot where
  directory : String
  table : Table
  deriving DecidableEq

namespace Snapshot

variable {σ ε : Type}

/-- What stands under a key. -/
def get? (s : Snapshot) (key : Bytes) : Option Bytes := s.table.get? key

/-- The log position that was committed with the data. -/
def applyIndex (s : Snapshot) : Except StoreError UInt64 := s.table.applyIndex

/-- Offers the values from one key to another, both included, in the order of the keys. -/
def rangeBytes (s : Snapshot) (first last : Bytes) (visit : Scan.Visitor σ Bytes (ScanFault ε))
    (state : σ) : σ × Option (ScanFault ε) :=
  Scan.walk visit state (s.table.valuesIn first last)

/-- Visits the values of a collection. -/
def rangeCollection (s : Snapshot) (c : Collection) (visit : Scan.Visitor σ Bytes (ScanFault ε))
    (state : σ) : σ × Option (ScanFault ε) :=
  s.rangeBytes c.least c.boundary visit state

/-- Visits the records of a collection. -/
def scan (s : Snapshot) (c : Collection) (visit : Scan.Visitor σ c.Record (ScanFault ε))
    (state : σ) : σ × Option (ScanFault ε) :=
  s.rangeCollection c (Scan.decoding c.decode visit) state

/-- Offers the records from one identity to another, both included, or to the end of the
collection. -/
def rangeRecords (s : Snapshot) (c : Collection) (first : c.Identity) (last : Option c.Identity)
    (visit : Scan.Visitor σ c.Record (ScanFault ε)) (state : σ) : σ × Option (ScanFault ε) :=
  let last :=
    match last with
    | some id => Key.of c id
    | none => c.boundary
  s.rangeBytes (Key.of c first) last (Scan.decoding c.decode visit) state

/-- Offers the entries of a directory in the order of their names. The values up to the first name
of the next directory are read; the scan ends at the first that belongs to another directory. -/
def children (s : Snapshot) (parent : UInt64) (visit : Scan.Visitor σ Dentry (ScanFault ε))
    (state : σ) : σ × Option (ScanFault ε) :=
  let last :=
    match Counting.addChecked parent 1 with
    | .ok next => Key.of .dentry ⟨next, ""⟩
    | .error _ => Collection.dentry.boundary
  let ofParent : Scan.Visitor σ Dentry (ScanFault ε) := fun state d =>
    if d.parent = parent then visit state d else (state, .enough)
  s.rangeBytes (Key.of .dentry ⟨parent, ""⟩) last (Scan.decoding Collection.dentry.decode ofParent)
    state

/-- The number of values in a collection, found by a scan. -/
def count (s : Snapshot) (c : Collection) : Nat :=
  let counting : Scan.Visitor Nat Bytes (ScanFault Empty) := fun n _ => (n + 1, .more)
  (s.rangeCollection c counting 0).1

end Snapshot

end FileCatalog
