import FileCatalog.Record.Attributes
import FileCatalog.Record.Dentry
import FileCatalog.Record.Inode
import FileCatalog.Record.Upload

/-!
# Collections

Four collections of records share one table. Each has a byte of its own, the first octet of all its
keys, so the collection byte alone is the least key that the collection can have, and the next byte
is above all of its keys.

`Collection.Record` is the type of a collection's records and `Collection.Identity` the type of
what tells them apart; operations on records take the collection first and are written once for
all four.
-/

namespace FileCatalog

/-- A kind of record that the catalog keeps. -/
inductive Collection where
  | inode
  | dentry
  | attributes
  | upload
  deriving DecidableEq, Repr, Inhabited

namespace Collection

/-- The collections in the order of their discriminators. -/
def all : List Collection := [inode, dentry, attributes, upload]

/-- The first octet of every key of the collection. -/
def byte : Collection → UInt8
  | inode => 0
  | dentry => 1
  | attributes => 2
  | upload => 3

/-- The collection whose keys begin with an octet. -/
def ofByte? (b : UInt8) : Option Collection := all.find? fun c => c.byte = b

/-- The word for the collection in texts and commands. -/
def name : Collection → String
  | inode => "inode"
  | dentry => "dentry"
  | attributes => "extend"
  | upload => "multipart"

/-- The collection that a word names; the case of ASCII letters does not count. -/
def ofName? (text : String) : Option Collection :=
  all.find? fun c => c.name.toList = text.toList.map Char.toLower

/-- Below every key of the collection. -/
def least (c : Collection) : Bytes := [c.byte]

/-- Above every key of the collection. -/
def boundary (c : Collection) : Bytes := [c.byte + 1]

/-- What the records of a collection are. -/
@[reducible] def Record : Collection → Type
  | inode => Inode
  | dentry => Dentry
  | attributes => Attributes
  | upload => Upload

/-- What tells the records of a collection apart. -/
@[reducible] def Identity : Collection → Type
  | inode => UInt64
  | dentry => DentryId
  | attributes => UInt64
  | upload => UploadId

/-- The identity of a record, as its fields tell it. -/
def identity : (c : Collection) → c.Record → c.Identity
  | inode, r => r.number
  | dentry, r => ⟨r.parent, r.name⟩
  | attributes, r => r.inode
  | upload, r => ⟨r.key, r.upload⟩

instance (c : Collection) : DecidableEq c.Record := by cases c <;> exact inferInstance

instance (c : Collection) : DecidableEq c.Identity := by cases c <;> exact inferInstance

end Collection

end FileCatalog
