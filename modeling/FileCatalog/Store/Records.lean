import FileCatalog.Store

/-!
# Records in a store

The operations of a store on the records of a collection. A record is written under the key of its
identity, in the octets of its layout. What cannot have a key of its own is refused before the
store is asked; then a released store refuses; only then do the contents matter.

Reading treats an empty value as no record.
-/

namespace FileCatalog.Store

variable {σ ε : Type}

/-- The record under an identity; an empty value there is as good as none. -/
def get (s : Store) (c : Collection) (id : c.Identity) : Except StoreError c.Record := do
  let key := Key.of c id
  match ← s.getBytes key with
  | some value => if value.isEmpty then throw (.missing c key) else c.decode value
  | none => throw (.missing c key)

/-- Whether there are octets under an identity; they are not decoded. -/
def contains (s : Store) (c : Collection) (id : c.Identity) : Except StoreError Bool :=
  s.hasKey (Key.of c id)

/-- A record that has a key of its own. -/
def checkRecord (c : Collection) (r : c.Record) : Except StoreError Unit :=
  match Key.check c r with
  | .ok () => .ok ()
  | .error fault => .error (.ofKeyFault fault)

/-- Writes a record, over the one with its identity if there is one. -/
def put (s : Store) (c : Collection) (r : c.Record) : Except StoreError Store := do
  checkRecord c r
  s.putBytes (Key.ofRecord c r) (c.encode r)

/-- Writes a record whose identity is not taken. -/
def create (s : Store) (c : Collection) (r : c.Record) : Except StoreError Store := do
  checkRecord c r
  let key := Key.ofRecord c r
  let (s, written) ← s.putBytesIfAbsent key (c.encode r)
  if written then return s else throw (.taken c key)

/-- Takes away the record with an identity, if there is one. -/
def delete (s : Store) (c : Collection) (id : c.Identity) : Except StoreError Store :=
  s.deleteBytes (Key.of c id)

/-- The number of entries in the bounds of a collection. -/
def count (s : Store) (c : Collection) : Except StoreError Nat := do
  return (← s.snapshot).count c

/-- Offers the records from one identity to another, both included, or to the end of the
collection, as they are committed now. -/
def range (s : Store) (c : Collection) (first : c.Identity) (last : Option c.Identity)
    (visit : Scan.Visitor σ c.Record (ScanFault ε)) (state : σ) : σ × Option (ScanFault ε) :=
  match s.snapshot with
  | .ok view => view.rangeRecords c first last visit state
  | .error e => (state, some (.store e))

/-- Offers the entries of a directory, as they are committed now. -/
def children (s : Store) (parent : UInt64) (visit : Scan.Visitor σ Dentry (ScanFault ε))
    (state : σ) : σ × Option (ScanFault ε) :=
  match s.snapshot with
  | .ok view => view.children parent visit state
  | .error e => (state, some (.store e))

end FileCatalog.Store
