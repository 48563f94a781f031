/-!
# File types

A POSIX mode holds the kind of a file-system object in four of its bits and the permissions in the
others. Three kinds are told apart; every other value of those bits is `other`.
-/

namespace FileCatalog

/-- The kinds of file. -/
inductive FileType where
  | regular
  | directory
  | symlink
  | other
  deriving DecidableEq, Repr, Inhabited

namespace FileType

/-- The bits of a mode that hold the kind. -/
def mask : UInt32 := 0o170000

/-- The bits that stand for a kind; none stand for `other`. -/
def bits : FileType → UInt32
  | regular => 0o100000
  | directory => 0o040000
  | symlink => 0o120000
  | other => 0

/-- The kind that the mode of an inode names. -/
def ofMode (mode : UInt32) : FileType :=
  let kind := mode &&& mask
  if kind = regular.bits then regular
  else if kind = directory.bits then directory
  else if kind = symlink.bits then symlink
  else other

/-- The mode of this kind with the given permissions; bits of the kind in `permissions` are not
taken. -/
def withPermissions (t : FileType) (permissions : UInt32) : UInt32 :=
  t.bits ||| (permissions &&& ~~~mask)

/-- The word for the kind in listings. -/
def text : FileType → String
  | regular => "file"
  | directory => "dir"
  | symlink => "symlink"
  | other => "other"

end FileType

end FileCatalog
