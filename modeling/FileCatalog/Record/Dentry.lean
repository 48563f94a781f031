import FileCatalog.Bytes
import FileCatalog.FileType
import FileCatalog.Text.Utf8

/-!
# Directory entries

A directory entry gives a name in a parent directory to an inode. Its identity is the parent and
the name. Identities are ordered by the number of the parent, then by the octets of the name.
-/

namespace FileCatalog

/-- What tells directory entries apart. -/
structure DentryId where
  parent : UInt64 := 0
  name : String := ""
  deriving DecidableEq, Repr, Inhabited

namespace DentryId

/-- The order of identities: by parent, then by the octets of the name. -/
def before (a b : DentryId) : Prop :=
  a.parent < b.parent ∨ a.parent = b.parent ∧ Utf8.encode a.name < Utf8.encode b.name

instance (a b : DentryId) : Decidable (a.before b) := by unfold before; infer_instance

/-- Identities in ascending order; equal ones keep their places. -/
def sort (ids : List DentryId) : List DentryId := ids.mergeSort fun a b => !decide (b.before a)

end DentryId

/-- A name in a directory, and the inode that it stands for. -/
structure Dentry where
  parent : UInt64 := 0
  name : String := ""
  inode : UInt64 := 0
  /-- The mode of the inode; only the kind in it counts. -/
  mode : UInt32 := 0
  deriving DecidableEq, Repr, Inhabited

/-- The kind of file that the entry names. -/
def Dentry.fileType (d : Dentry) : FileType := FileType.ofMode d.mode

end FileCatalog
