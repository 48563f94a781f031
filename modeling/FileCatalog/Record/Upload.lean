import FileCatalog.Counting
import FileCatalog.OrderedMap

/-!
# Multipart uploads

An upload record gathers the parts of one object under way. Parts are found by halving the list, as
suits a list that ascends by part number; on such a list an upload is a finite map from part number
to part. The list is not forced to ascend, since records are also read from stored octets. On any
list the search has one definite outcome: it keeps the later half whenever the half begins with a
number that is not too large.
-/

namespace FileCatalog

structure Part where
  number : UInt16 := 0
  uploadTime : Int64 := 0
  md5 : String := ""
  size : UInt64 := 0
  inode : UInt64 := 0
  deriving DecidableEq, Repr, Inhabited

/-- What tells uploads apart. -/
structure UploadId where
  key : String := ""
  upload : String := ""
  deriving DecidableEq, Repr, Inhabited

/-- The record of one upload under way. -/
structure Upload where
  key : String := ""
  upload : String := ""
  startTime : Int64 := 0
  parts : List Part := []
  extend : OrderedMap String String := ∅
  deriving DecidableEq, Inhabited

/-! ## Finding a part -/

/-- Where a search by halving ends. -/
inductive Place where
  | at (index : Nat)
  /-- There is none; it belongs before the item that is at the index now. -/
  | before (index : Nat)
  deriving DecidableEq, Repr

namespace Part

/-- The last index, of the `size` ones from `base` on, that halving is left with. -/
def halve (parts : List Part) (number : UInt16) (base size : Nat) : Nat :=
  if size ≤ 1 then base
  else
    let half := size / 2
    let kept :=
      match parts[base + half]? with
      | some p => if number < p.number then base else base + half
      | none => base
    halve parts number kept (size - half)
termination_by size
decreasing_by omega

/-- Where the part with this number is, or belongs. -/
def locate (parts : List Part) (number : UInt16) : Place :=
  let last := halve parts number 0 parts.length
  match parts[last]? with
  | none => .before last
  | some p =>
    if p.number = number then .at last
    else if p.number < number then .before (last + 1)
    else .before last

end Part

namespace Upload

/-- A fresh record at the time `now`, without parts. -/
def fresh (now : Int64) (key upload : String) : Upload where
  key := key
  upload := upload
  startTime := now

def part? (u : Upload) (number : UInt16) : Option Part :=
  match Part.locate u.parts number with
  | .at index => u.parts[index]?
  | .before _ => none

/-- Puts a part in its place; the result also tells the part that it replaced. -/
def insertPart (u : Upload) (p : Part) : Upload × Option Part :=
  match Part.locate u.parts p.number with
  | .at index => ({ u with parts := u.parts.set index p }, u.parts[index]?)
  | .before index => ({ u with parts := u.parts.insertIdx index p }, none)

/-- Takes a part away; the result also tells the part. -/
def removePart (u : Upload) (number : UInt16) : Upload × Option Part :=
  match Part.locate u.parts number with
  | .at index => ({ u with parts := u.parts.eraseIdx index }, u.parts[index]?)
  | .before _ => (u, none)

/-- The sizes of all parts added up. -/
def totalSize (u : Upload) : Except ArithmeticFault UInt64 :=
  u.parts.foldlM (fun sum p => Counting.addChecked sum p.size) 0

end Upload

end FileCatalog
