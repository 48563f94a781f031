import FileCatalog.Scan

/-!
# Steps and replies

The vocabulary of a session: a `Step` is one operation on a store, its snapshots or its files, and
a `Reply` is the answer to it. A step that scans says what it goes over, where its visitor ends of
its own accord, and which steps run inside its first visit.
-/

namespace FileCatalog

/-- What a scan goes over. -/
inductive Target where
  /-- The values from one key to another. -/
  | bytes (first last : Bytes)
  | values (c : Collection)
  | records (c : Collection)
  /-- The records from one identity to another, or to the end of the collection. -/
  | between (c : Collection) (first : c.Identity) (last : Option c.Identity)
  | children (parent : UInt64)

/-- Where a visitor ends a scan of its own accord, by number of the visit. -/
structure Halt where
  /-- The visit that has had enough. -/
  enoughAt : Option Nat := none
  /-- The visit that fails; it goes before `enoughAt`. -/
  failAt : Option Nat := none
  deriving DecidableEq, Repr, Inhabited

/-- One operation of a session. -/
inductive Step where
  /-- Announces a log position. -/
  | setApplyIndex (index : UInt64)
  /-- Asks for the state of the store. -/
  | status
  | flush
  | release
  /-- Opens the directory again, with a write buffer of its own if one is given. -/
  | reopen (writeBuffer : Option UInt64)
  /-- Breaks off and opens what is durable. -/
  | crash
  /-- Writes to the files of a released store, or takes away the value. -/
  | poke (key : Bytes) (value : Option Bytes)
  | getBytes (key : Bytes)
  | hasKey (key : Bytes)
  | putBytes (key value : Bytes)
  | putBytesIfAbsent (key value : Bytes)
  | deleteBytes (key : Bytes)
  | get (c : Collection) (id : c.Identity)
  | contains (c : Collection) (id : c.Identity)
  | put (c : Collection) (r : c.Record)
  | create (c : Collection) (r : c.Record)
  | delete (c : Collection) (id : c.Identity)
  | count (c : Collection)
  /-- Takes a snapshot under a name, in place of the one that has it. -/
  | takeSnapshot (name : String)
  | closeSnapshot (name : String)
  | snapshotGet (name : String) (key : Bytes)
  | snapshotApplyIndex (name : String)
  | snapshotCount (name : String) (c : Collection)
  /-- Scans the store, or the snapshot of a name; `during` runs inside the first visit. -/
  | scan (view : Option String) (target : Target) (halt : Halt) (during : List Step)

/-- What a scan has offered. -/
inductive Item where
  | value (octets : Bytes)
  | record (c : Collection) (r : c.Record)

/-- The state of a store as it can be asked for. -/
structure Status where
  directory : String
  isClosed : Bool
  applyIndex : UInt64
  persisted : Except StoreError UInt64
  unsynced : Nat

/-- The answer to a step. -/
inductive Reply where
  | done
  | flag (b : Bool)
  | number (n : Nat)
  | value (octets : Option Bytes)
  | record (c : Collection) (r : c.Record)
  | status (s : Status)
  /-- All visited items, what ended the scan with an error, and the answers to the steps inside the
  first visit, if there was a visit. -/
  | scanned (seen : List Item) (fault : Option (ScanFault Nat)) (during : Option (List Reply))
  | failed (e : StoreError)
  /-- No snapshot has the name. -/
  | noSnapshot (name : String)

/-- The answer that a result amounts to. -/
def Reply.ofExcept {α : Type} (reply : α → Reply) : Except StoreError α → Reply
  | .ok a => reply a
  | .error e => .failed e

end FileCatalog
