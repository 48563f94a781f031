import FileCatalog.OrderedMap

/-!
# Extended attributes

All extended attributes of one inode are one record: a map from names to values, both of them byte
strings.
-/

namespace FileCatalog

/-- The extended attributes of an inode. -/
structure Attributes where
  inode : UInt64 := 0
  values : Table := ∅
  deriving DecidableEq, Inhabited

namespace Attributes

/-- The record of an inode without attributes. -/
def ofInode (inode : UInt64) : Attributes where
  inode := inode

/-- The value of an attribute. -/
def get? (a : Attributes) (name : Bytes) : Option Bytes := a.values.get? name

/-- Gives an attribute a value; the result also tells the value that it had. -/
def set (a : Attributes) (name value : Bytes) : Attributes × Option Bytes :=
  ({ a with values := a.values.insert name value }, a.get? name)

/-- Takes an attribute away; the result also tells the value that it had. -/
def remove (a : Attributes) (name : Bytes) : Attributes × Option Bytes :=
  ({ a with values := a.values.erase name }, a.get? name)

/-- The names, ascending by their octets. -/
def names (a : Attributes) : List Bytes := a.values.keys

end Attributes

end FileCatalog
