import FileCatalog.Bytes
import FileCatalog.Counting
import FileCatalog.FileType

/-!
# Inodes

An inode record describes one file-system object: its kind and owner, its times, and the extents
that hold its data. Two operations change a record in place, `touch` and `appendExtent`. Each of
them raises the generation by one as its last act, so at the largest generation the rest of the
change stands and the call itself faults.
-/

namespace FileCatalog

/-- Where one stretch of a file's data is kept. -/
structure Extent where
  fileOffset : UInt64 := 0
  partition : UInt64 := 0
  extent : UInt64 := 0
  extentOffset : UInt64 := 0
  size : UInt32 := 0
  crc : UInt32 := 0
  deriving DecidableEq, Repr, Inhabited

/-- The file offset just past the extent; the largest offset if it ends beyond. -/
def Extent.fileEnd (e : Extent) : UInt64 := Counting.addClamped e.fileOffset e.size.toUInt64

/-- The record of one file-system object. -/
structure Inode where
  number : UInt64 := 0
  mode : UInt32 := 0
  uid : UInt32 := 0
  gid : UInt32 := 0
  size : UInt64 := 0
  generation : UInt64 := 0
  createTime : Int64 := 0
  accessTime : Int64 := 0
  modifyTime : Int64 := 0
  /-- What a symbolic link points to; empty for other kinds. -/
  linkTarget : Bytes := []
  linkCount : UInt32 := 0
  flag : UInt32 := 0
  extents : List Extent := []
  deriving DecidableEq, Repr, Inhabited

namespace Inode

/-- The inode of the directory at the top. -/
def root : UInt64 := 1

/-- A fresh record at the time `now`. A directory has a second link, its own entry. -/
def fresh (now : Int64) (number : UInt64) (mode : UInt32) : Inode where
  number := number
  mode := mode
  generation := 1
  createTime := now
  accessTime := now
  modifyTime := now
  linkCount := if FileType.ofMode mode = .directory then 2 else 1

/-- The kind of file, as the mode tells it. -/
def fileType (i : Inode) : FileType := FileType.ofMode i.mode

/-- The inode is a directory. -/
def isDirectory (i : Inode) : Bool := i.fileType = .directory

/-- The inode is a regular file. -/
def isRegular (i : Inode) : Bool := i.fileType = .regular

/-- The inode is a symbolic link. -/
def isSymlink (i : Inode) : Bool := i.fileType = .symlink

/-- Raises the generation by one. -/
def bump (i : Inode) : Inode × Except ArithmeticFault Unit :=
  match Counting.addChecked i.generation 1 with
  | .ok next => ({ i with generation := next }, .ok ())
  | .error fault => (i, .error fault)

/-- Sets the access and the modify time to `now` and raises the generation. -/
def touch (now : Int64) (i : Inode) : Inode × Except ArithmeticFault Unit :=
  bump { i with accessTime := now, modifyTime := now }

/-- Adds an extent behind the others, lets the size reach its end, and raises the generation. -/
def appendExtent (e : Extent) (i : Inode) : Inode × Except ArithmeticFault Unit :=
  bump { i with size := max i.size e.fileEnd, extents := i.extents ++ [e] }

end Inode

end FileCatalog
