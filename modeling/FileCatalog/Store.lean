import FileCatalog.Snapshot

/-!
# The store

A `Store` keeps one table under a directory. Three copies of knowledge matter:

- `committed` is what reads see;
- `durable` is what the files hold, and so what is left after a crash;
- `applyIndex` is the position in the replicated log that the caller has announced. Every write
  puts it into the table together with the data, so neither is ever committed without the other.

A commit is durable only when the payload of the commits since the last durable one reaches
`writeBuffer`; `unsynced` counts that payload in octets. `flush` makes all commits durable, and so
does `release`, which ends the use of the store. After a release every operation on the table is
refused, while the announced position can still be read and set.

An empty value counts as absent where it is asked whether a key is occupied.
-/

namespace FileCatalog

/-- A table under a directory, with what is durable of it. -/
structure Store where
  directory : String
  isClosed : Bool := false
  /-- The table with all commits. -/
  committed : Table
  /-- The table with the durable commits. -/
  durable : Table
  applyIndex : UInt64
  /-- The payload that makes a commit durable. -/
  writeBuffer : UInt64
  /-- The payload since the last durable commit. -/
  unsynced : Nat := 0
  deriving DecidableEq

namespace Store

variable {σ ε : Type}

/-! ## Opening and releasing -/

/-- The store of a directory whose files hold the table `t`. It is refused if the log position in
the table is damaged. -/
def load (directory : String) (t : Table) (writeBuffer : UInt64) : Except StoreError Store :=
  match t.applyIndex with
  | .ok applyIndex => .ok { directory, committed := t, durable := t, applyIndex, writeBuffer }
  | .error e => .error (.open directory e.message)

def fresh (directory : String) (writeBuffer : UInt64) : Store where
  directory := directory
  committed := ∅
  durable := ∅
  applyIndex := 0
  writeBuffer := writeBuffer

/-- Ends the use of the store; a second release changes nothing. -/
def release (s : Store) : Store :=
  if s.isClosed then s else { s with isClosed := true, durable := s.committed }

/-- The committed table, unless the store was released. -/
def table (s : Store) : Except StoreError Table :=
  if s.isClosed then .error .closed else .ok s.committed

/-- The committed table as a view of its own. -/
def snapshot (s : Store) : Except StoreError Snapshot := do
  return ⟨s.directory, ← s.table⟩

/-! ## The log position -/

/-- Announces a log position. The next write commits it. -/
def setApplyIndex (s : Store) (index : UInt64) : Store := { s with applyIndex := index }

def persistedIndex (s : Store) : Except StoreError UInt64 := do (← s.table).applyIndex

/-- A table with the announced log position in it. -/
def stamp (s : Store) (t : Table) : Table :=
  t.insert Key.applyIndex (applyIndexOctets s.applyIndex)

/-! ## Committing -/

/-- The largest payload that is counted. -/
def mostUnsynced : Nat := UInt64.size - 1

/-- Commits a table; the commit is durable if the payload since the last durable commit, this one
included, reaches the write buffer. -/
def commit (s : Store) (t : Table) (payload : Nat) : Store :=
  let pending := min (s.unsynced + payload) mostUnsynced
  if s.writeBuffer.toNat ≤ pending then { s with committed := t, durable := t, unsynced := 0 }
  else { s with committed := t, unsynced := pending }

def flush (s : Store) : Except StoreError Store := do
  let t ← s.table
  return { s with durable := t, unsynced := 0 }

/-! ## Values under keys -/

def getBytes (s : Store) (key : Bytes) : Except StoreError (Option Bytes) := do
  return (← s.table).get? key

/-- Whether a value holds anything. -/
def occupied : Option Bytes → Bool
  | some value => !value.isEmpty
  | none => false

/-- Whether a value that is not empty stands under a key. -/
def hasKey (s : Store) (key : Bytes) : Except StoreError Bool := do
  return occupied (← s.getBytes key)

/-- Writes a value under a key, with the log position. -/
def putBytes (s : Store) (key value : Bytes) : Except StoreError Store := do
  let t ← s.table
  return s.commit (s.stamp (t.insert key value)) (key.length + value.length)

/-- Writes a value under a key that is not occupied; the result also tells whether it did. -/
def putBytesIfAbsent (s : Store) (key value : Bytes) : Except StoreError (Store × Bool) := do
  if ← s.hasKey key then return (s, false)
  return (← s.putBytes key value, true)

/-- Takes away the value under a key, if there is one, and writes the log position. -/
def deleteBytes (s : Store) (key : Bytes) : Except StoreError Store := do
  let t ← s.table
  return s.commit (s.stamp (t.erase key)) key.length

/-- Offers the values from one key to another, both included, as they are committed now. -/
def rangeBytes (s : Store) (first last : Bytes) (visit : Scan.Visitor σ Bytes (ScanFault ε))
    (state : σ) : σ × Option (ScanFault ε) :=
  match s.snapshot with
  | .ok view => view.rangeBytes first last visit state
  | .error e => (state, some (.store e))

end Store

end FileCatalog
