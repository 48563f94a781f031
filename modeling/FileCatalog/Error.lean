import FileCatalog.Key
import FileCatalog.Text.Quoted

/-!
# Errors of the store

Each constructor of `StoreError` is one cause. `StoreError.message` words it, `StoreError.errno`
gives the POSIX number that a file system reports for it, and `StoreError.cause?` the wording of
the error below it, where there is one. The causes of a damaged record are those of the record
layout; the faults of the storage below the table carry their own wording.
-/

namespace FileCatalog

/-- The text of a fault in a key. -/
def KeyFault.message : KeyFault → String
  | .zeroInName name => s!"dentry name contains NUL: {Text.quoted name}"
  | .objectKeyTooLong length => s!"multipart object key too long: {length} bytes"

/-- Why octets are no record, or a record has no octets. -/
inductive LayoutFault where
  /-- The octets end inside a number, or before a byte string or a list is complete. -/
  | endOfInput
  /-- A text is said to be longer than the octets left. -/
  | textPastEnd
  | notText (fault : Utf8.Fault)
  | leftOver
  /-- Another fault, by its wording. -/
  | stated (text : String)
  deriving DecidableEq, Repr

/-- The text of a fault in octets. -/
def LayoutFault.message : LayoutFault → String
  | .endOfInput => "io error: unexpected end of file"
  | .textPastEnd => "io error: "
  | .notText fault => s!"string is not valid utf8: {fault.message}"
  | .leftOver => "Slice had bytes remaining after deserialization"
  | .stated text => text

/-- Why an operation on a store failed. -/
inductive StoreError where
  /-- The directory could not be opened as a store. -/
  | open (path cause : String)
  | notFound (c : Collection) (key : String)
  | alreadyExists (c : Collection) (key : String)
  /-- The octets under a key are no record of the collection. -/
  | decode (c : Collection) (fault : LayoutFault)
  | encode (c : Collection) (fault : LayoutFault)
  /-- The stored log position has not eight octets but this many. -/
  | corruptApplyIndex (length : Nat)
  | invalidKey (reason : String)
  | closed
  | storage (detail : String)
  | table (name : String)
  | transaction (detail : String)
  | commit (detail : String)
  deriving DecidableEq, Repr

namespace StoreError

/-- The error of a record that was looked for and is not there. -/
def missing (c : Collection) (key : Bytes) : StoreError := .notFound c key.hex

/-- The error of a record that was to be made and is there. -/
def taken (c : Collection) (key : Bytes) : StoreError := .alreadyExists c key.hex

def corrupted (detail : String) : String := s!"DB corrupted: {detail}"

def missingTable (name : String) : String := s!"Table '{name}' does not exist"

/-- What a message about a directory that could not be opened begins with. -/
def openHeadline (path : String) : String := s!"failed to open store at {path}"

/-- The text of an error. -/
def message : StoreError → String
  | .open path cause => s!"{openHeadline path}: {cause}"
  | .notFound c key => s!"{c.name} not found: {key}"
  | .alreadyExists c key => s!"{c.name} already exists: {key}"
  | .decode c fault => s!"failed to decode {c.name} record: {fault.message}"
  | .encode c fault => s!"failed to encode {c.name} record: {fault.message}"
  | .corruptApplyIndex length => s!"corrupt apply index: expected 8 bytes, found {length}"
  | .invalidKey reason => s!"invalid key: {reason}"
  | .closed => "store is closed"
  | .storage detail => s!"redb storage error: {corrupted detail}"
  | .table name => s!"redb table error: {missingTable name}"
  | .transaction detail => s!"redb transaction error: {corrupted detail}"
  | .commit detail => s!"redb commit error: {corrupted detail}"

/-- The wording of the error below this one. A transaction shows the error below as its own. -/
def cause? : StoreError → Option String
  | .open _ cause => some cause
  | .decode _ fault => some fault.message
  | .encode _ fault => some fault.message
  | .storage detail => some (corrupted detail)
  | .table name => some (missingTable name)
  | .commit detail => some (corrupted detail)
  | _ => none

/-- The number that a file system reports for the error: ENOENT, EEXIST, EINVAL, ESHUTDOWN, and
EIO for all others. -/
def errno : StoreError → Nat
  | .notFound .. => 2
  | .alreadyExists .. => 17
  | .invalidKey _ => 22
  | .closed => 108
  | _ => 5

/-- The error says that a record is missing. -/
def isNotFound : StoreError → Bool
  | .notFound .. => true
  | _ => false

/-- The error says that a key is taken. -/
def isAlreadyExists : StoreError → Bool
  | .alreadyExists .. => true
  | _ => false

/-- The error of a record without a key of its own. -/
def ofKeyFault (fault : KeyFault) : StoreError := .invalidKey fault.message

end StoreError

/-- The collection that a word names, or the error that none is named so. -/
def Collection.ofName (text : String) : Except StoreError Collection :=
  match Collection.ofName? text with
  | some c => .ok c
  | none => .error (.invalidKey s!"unknown collection: {text}")

end FileCatalog
