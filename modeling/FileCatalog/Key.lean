import FileCatalog.Bytes.Word
import FileCatalog.Collection

/-!
# Keys

The key of a record is its collection byte followed by the octets of its identity:

| collection  | octets of the identity                                        |
|-------------|---------------------------------------------------------------|
| inode       | the number, 8 octets                                          |
| dentry      | the parent, 8 octets, then the name                           |
| attributes  | the inode, 8 octets                                           |
| upload      | the length of the object key, 4 octets, that key, the upload  |

Numbers are written from the most significant octet on, so the order of keys is the order of
identities. A name ends where the key ends; it may not hold the octet zero. Object keys come in the
order of their length first.

One key stands apart from all collections: `Key.applyIndex` holds the position in the replicated
log that the table has reached.
-/

namespace FileCatalog

/-- Why a record has no key of its own. -/
inductive KeyFault where
  | zeroInName (name : String)
  /-- The object key is longer than its length field can say. -/
  | objectKeyTooLong (length : Nat)
  deriving DecidableEq, Repr

namespace Key

/-- The key of the log position. -/
def applyIndex : Bytes := 0xFF :: Utf8.encode "apply_index"

/-- The largest length of an object key that its field can hold. -/
def longestObjectKey : Nat := UInt32.size - 1

/-- The octets of an identity in a key, behind the discriminator. -/
def ofIdentity : (c : Collection) → c.Identity → Bytes
  | .inode, number => Bytes.bigEndian 8 number.toNat
  | .dentry, id => Bytes.bigEndian 8 id.parent.toNat ++ Utf8.encode id.name
  | .attributes, number => Bytes.bigEndian 8 number.toNat
  | .upload, id =>
    let object := Utf8.encode id.key
    Bytes.bigEndian 4 (min object.length longestObjectKey) ++ object ++ Utf8.encode id.upload

/-- The key under which the record with this identity is kept. -/
def of (c : Collection) (id : c.Identity) : Bytes := c.byte :: ofIdentity c id

/-- The key that a record is stored under. -/
def ofRecord (c : Collection) (r : c.Record) : Bytes := of c (c.identity r)

/-- A name of a directory entry, unless it holds the octet zero. -/
def checkName (name : String) : Except KeyFault Unit :=
  if 0 ∈ Utf8.encode name then .error (.zeroInName name) else .ok ()

/-- An object key, unless its length does not fit its field. -/
def checkObjectKey (key : String) : Except KeyFault Unit :=
  let length := (Utf8.encode key).length
  if length ≤ longestObjectKey then .ok () else .error (.objectKeyTooLong length)

/-- Whether a record has a key of its own. -/
def check : (c : Collection) → c.Record → Except KeyFault Unit
  | .inode, _ => .ok ()
  | .dentry, r => checkName r.name
  | .attributes, _ => .ok ()
  | .upload, r => checkObjectKey r.key

/-- Keys in ascending order. -/
def sort (keys : List Bytes) : List Bytes := keys.mergeSort fun a b => !decide (b < a)

end Key

end FileCatalog
