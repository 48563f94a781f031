import FileCatalog.Files

/-!
# Files in memory

A `Volume` is a file system as a value: the tree below the root. `Volume.files` answers the
questions of a store from it. A place of the tree is the names from the root down to it. Paths that
do not begin at the root are taken from the root as well.

A path is followed piece by piece. A dot stays, two dots go up, and both need a directory to stand
on; so does every name that more pieces follow.

A volume knows no name of more than 255 octets, no path of more than 4095, and no path with a NUL in
it. What is asked of such a path fails.
-/

namespace FileCatalog

/-- What stands at a place of a volume. -/
inductive Entry where
  | file (octets : Bytes)
  | directory (members : List (String × Entry))
  deriving Repr, Inhabited

/-- What stands in a directory, by name. -/
abbrev Entry.Members := List (String × Entry)

/-- A file system as a value. -/
structure Volume where
  /-- What stands in the directory at the root. -/
  members : Entry.Members := []
  deriving Repr, Inhabited

namespace Entry

/-- Whether it is a directory. -/
def isDirectory : Entry → Bool
  | directory _ => true
  | file _ => false

/-- What stands at the names below. -/
def at? (e : Entry) : List String → Option Entry
  | [] => some e
  | name :: rest =>
    match e with
    | file _ => none
    | directory members =>
      match members.lookup name with
      | some inner => at? inner rest
      | none => none

/-- The members of a directory with something at the names below it. Only the last of the names need
not be there; if another is missing, or is no directory, nothing changes. -/
def Members.set (members : Members) (place : List String) (e : Entry) : Members :=
  match place with
  | [] => members
  | name :: rest =>
    let others := members.filter (·.1 ≠ name)
    if rest.isEmpty then (name, e) :: others
    else
      match members.lookup name with
      | some (directory inner) => (name, directory (Members.set inner rest e)) :: others
      | _ => members

end Entry

namespace Volume

/-- What stands at a place. -/
def entry? (v : Volume) (place : List String) : Option Entry := (Entry.directory v.members).at? place

/-- Whether there is a directory at a place. -/
def isDirectory (v : Volume) (place : List String) : Bool :=
  (v.entry? place).any Entry.isDirectory

/-- The volume with something at a place of a directory that is there. -/
def set (v : Volume) (place : List String) (e : Entry) : Volume := ⟨v.members.set place e⟩

/-! ## Paths -/

/-- The most octets of a name. -/
def longestName : Nat := 255

/-- The most octets of a path. -/
def longestPath : Nat := 4095

/-- Whether something can have a name. -/
def allowsName (name : String) : Bool := name.utf8ByteSize ≤ longestName

/-- Whether a path can be asked for. -/
def allowsPath (path : String) : Bool :=
  path.utf8ByteSize ≤ longestPath && !path.toList.contains '\x00'

/-- Where pieces lead from a place. The last name need not be there. -/
def follow (v : Volume) (place : List String) : List String → Option (List String)
  | [] => some place
  | piece :: rest =>
    if !v.isDirectory place then none
    else if piece = "." then follow v place rest
    else if piece = ".." then follow v place.dropLast rest
    else if allowsName piece then follow v (place ++ [piece]) rest
    else none

/-- The place that a path names; a slash at the end asks for a directory there. -/
def place? (v : Volume) (path : String) : Option (List String) :=
  let pieces := Path.pieces path
  if allowsPath path then
    v.follow [] (if path.toList.getLast? = some '/' then pieces ++ ["."] else pieces)
  else none

/-! ## Questions -/

/-- Goes along pieces and makes the directories that are missing; tells where that led, if to a
directory. What was made before a piece that leads nowhere stays. -/
def makeAlong (v : Volume) (place : List String) : List String → Volume × Option (List String)
  | [] => (v, some place)
  | piece :: rest =>
    if piece = "." then makeAlong v place rest
    else if piece = ".." then makeAlong v place.dropLast rest
    else if allowsName piece then
      let place := place ++ [piece]
      match v.entry? place with
      | some (.directory _) => makeAlong v place rest
      | none => makeAlong (v.set place (.directory [])) place rest
      | some (.file _) => (v, none)
    else (v, none)

/-- Makes a directory and those above it. A dot at the end of a path does not make the directory
that it stands for. -/
def makeDirectory (v : Volume) (path : String) : Volume × Bool :=
  let pieces := Path.pieces path
  if !allowsPath path then (v, false)
  else if pieces.getLast? = some "." then
    let named := pieces.filter (· ≠ ".")
    let (v, above) := v.makeAlong [] named.dropLast
    let place := above.bind fun place => v.follow place (named.drop (named.length - 1))
    (v, place.any v.isDirectory)
  else
    let (v, place) := v.makeAlong [] pieces
    (v, place.isSome)

/-- What a path names. -/
def read (v : Volume) (path : String) : Content :=
  match v.place? path with
  | none => .unreadable
  | some place =>
    match v.entry? place with
    | none => .nothing
    | some (.directory _) => .unreadable
    | some (.file octets) => .file octets

/-- Writes a file where there is none or another; tells whether it could. -/
def write (v : Volume) (path : String) (octets : Bytes) : Volume × Bool :=
  match v.place? path with
  | none => (v, false)
  | some place =>
    if v.isDirectory place.dropLast && !v.isDirectory place then
      (v.set place (.file octets), true)
    else (v, false)

/-- The files of a volume. -/
def files : Files (StateM Volume) where
  makeDirectory path := fun v => (v.makeDirectory path).swap
  read path := fun v => (v.read path, v)
  write path octets := fun v => (v.write path octets).swap

end Volume

end FileCatalog
