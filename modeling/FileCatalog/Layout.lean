import FileCatalog.Bytes.Word
import FileCatalog.Error
import FileCatalog.OrderedMap

/-!
# Layouts

A `Layout` of a type says how its values stand in octets: `write` gives the octets of a value and
`read` takes a value off the front of octets and leaves the rest. Layouts are put together from
words, texts, sequences and pairs, so what holds of the parts carries over to every record.

Words have a fixed width, the least significant octet first. Whatever varies in length is preceded
by its length in eight octets. Nothing else stands between values.

`Layout.decode` reads a whole value: it refuses octets that are left over, once the value itself
has been read.
-/

namespace FileCatalog

/-- Takes a value off the front of octets. -/
abbrev Reader (α : Type) := Bytes → Except LayoutFault (α × Bytes)

/-- How the values of a type stand in octets. -/
structure Layout (α : Type) where
  write : α → Bytes
  /-- Takes a value off the front of octets. -/
  read : Reader α

namespace Layout

variable {α β : Type}

/-! ## Words -/

/-- The first `w` octets, and the rest. Only the octets that are taken are counted, so reading takes
time in the octets that it reads. -/
def takeOctets (w : Nat) : Reader Bytes := fun bs =>
  let octets := bs.take w
  if octets.length = w then .ok (octets, bs.drop w) else .error .endOfInput

/-- A number as `w` octets, the lowest first. -/
def word (w : Nat) : Layout Nat where
  write n := Bytes.littleEndian w n
  read bs := do
    let (octets, rest) ← takeOctets w bs
    return (Bytes.ofLittleEndian octets, rest)

/-- The values of one type laid out as those of another that they correspond to. -/
def via (l : Layout α) (make : α → β) (parts : β → α) : Layout β where
  write b := l.write (parts b)
  read bs := do
    let (a, rest) ← l.read bs
    return (make a, rest)

def word8 : Layout UInt8 := (word 1).via UInt8.ofNat UInt8.toNat

def word16 : Layout UInt16 := (word 2).via UInt16.ofNat UInt16.toNat

def word32 : Layout UInt32 := (word 4).via UInt32.ofNat UInt32.toNat

/-- A word as eight octets. -/
def word64 : Layout UInt64 := (word 8).via UInt64.ofNat UInt64.toNat

/-- A signed word, laid out as the unsigned word of the same bits. -/
def signed64 : Layout Int64 := word64.via UInt64.toInt64 Int64.toUInt64

/-! ## Putting layouts together -/

/-- One layout after the other. -/
def pair (l : Layout α) (m : Layout β) : Layout (α × β) where
  write ab := l.write ab.1 ++ m.write ab.2
  read bs := do
    let (a, rest) ← l.read bs
    let (b, rest) ← m.read rest
    return ((a, b), rest)

/-- Takes `n` values off the front of octets. -/
def readMany (read : Reader α) : Nat → Reader (List α)
  | 0, bs => .ok ([], bs)
  | n + 1, bs => do
    let (a, rest) ← read bs
    let (as, rest) ← readMany read n rest
    return (a :: as, rest)

/-- The number of values, then each value. -/
def list (l : Layout α) : Layout (List α) where
  write as := word64.write (UInt64.ofNat as.length) ++ as.flatMap l.write
  read bs := do
    let (n, rest) ← word64.read bs
    readMany l.read n.toNat rest

/-- A byte string is the list of its octets. -/
def bytes : Layout Bytes := list word8

/-- The number of octets, then the UTF-8 octets of a text. A length past the end of the octets is a
fault of its own, told apart from an end inside a number. -/
def text : Layout String where
  write s := word64.write (UInt64.ofNat (Utf8.encode s).length) ++ Utf8.encode s
  read bs := do
    let (n, rest) ← word64.read bs
    let octets := rest.take n.toNat
    if octets.length = n.toNat then
      match Utf8.decode octets with
      | .ok s => return (s, rest.drop n.toNat)
      | .error fault => throw (.notText fault)
    else throw .textPastEnd

/-- The entries of a map as a list of pairs. They are written by ascending key and read in any
order; of entries with one key the last counts. -/
def map {κ ν : Type} [ByteOrdered κ] (l : Layout κ) (m : Layout ν) : Layout (OrderedMap κ ν) :=
  (list (l.pair m)).via OrderedMap.ofList OrderedMap.entries

/-! ## Whole values -/

/-- Reads a value that takes up all of the octets. -/
def decode (l : Layout α) (bs : Bytes) : Except LayoutFault α := do
  let (a, rest) ← l.read bs
  if rest.isEmpty then return a else throw .leftOver

end Layout

end FileCatalog
