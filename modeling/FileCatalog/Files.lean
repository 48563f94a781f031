import FileCatalog.Store.Records
import FileCatalog.Path

/-!
# Files of a store

A store lies in a directory, in one file that holds the image of its table. `Files` is what a
store asks of a file system: to make a directory, to read what a path names and to write a file. It
is a structure of functions in some monad, so that opening and saving a store are written once, for
the files of the machine and for files that are played out in memory.

An image begins with a mark that no text contains, followed by the entries of the table. An empty
file counts as the image of the empty table; any other file is no image, and the directory is
refused.
-/

namespace FileCatalog

/-- What a path names. -/
inductive Content where
  | nothing
  | file (octets : Bytes)
  /-- A directory, or something that cannot be read. -/
  | unreadable
  deriving DecidableEq, Repr

/-- What a store asks of a file system. -/
structure Files (m : Type → Type) where
  /-- Makes a directory and those above it, as far as they are missing; tells whether the directory
  is there in the end. -/
  makeDirectory : String → m Bool
  /-- What a path names. -/
  read : String → m Content
  /-- Writes a file; tells whether it could. -/
  write : String → Bytes → m Bool

/-! ## Images -/

namespace Image

/-- What an image begins with. -/
def mark : Bytes := 0xFF :: Utf8.encode "catalog\n"

/-- How a table stands in an image, behind the mark. -/
def layout : Layout Table := Layout.map Layout.bytes Layout.bytes

/-- The image of a table. -/
def write (t : Table) : Bytes := mark ++ layout.write t

/-- The table of an image. -/
def read? (octets : Bytes) : Option Table :=
  if octets.isEmpty then some ∅
  else if octets.take mark.length = mark then
    match layout.decode (octets.drop mark.length) with
    | .ok t => some t
    | .error _ => none
  else none

end Image

namespace Files

variable {m : Type → Type} [Monad m]

/-- The name of the file that holds the image. -/
def imageName : String := "metadata.redb"

/-- Opens the store in a directory; a directory without one gets an empty one. -/
def openStore (files : Files m) (path : String) (writeBuffer : UInt64) :
    m (Except StoreError Store) := do
  if !(← files.makeDirectory path) then return .error (.open path "not a directory")
  let file := Path.join path imageName
  match ← files.read file with
  | .nothing =>
    if ← files.write file (Image.write ∅) then return Store.load path ∅ writeBuffer
    else return .error (.open path "the file cannot be made")
  | .file octets =>
    match Image.read? octets with
    | some t => return Store.load path t writeBuffer
    | none => return .error (.open path "the file is no image")
  | .unreadable => return .error (.open path "the file cannot be read")

/-- Writes what a released store leaves; tells whether it could. -/
def saveStore (files : Files m) (store : Store) : m Bool :=
  files.write (Path.join store.directory imageName) (Image.write store.release.durable)

/-- The text that a path names, if it names a file with a text. -/
def readText (files : Files m) (path : String) : m (Option String) := do
  match ← files.read path with
  | .file octets =>
    match Utf8.decode octets with
    | .ok text => return some text
    | .error _ => return none
  | _ => return none

end Files

end FileCatalog
