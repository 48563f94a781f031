import FileCatalog.Bytes
import FileCatalog.Text.Utf8

/-!
# Maps in byte order

An `OrderedMap` holds each key at most once and lists its entries by ascending key octets. The
order is part of the type: `ascending` says that of two entries the earlier has the smaller key, so
two maps that answer alike for every key are the same list.

Keys need not be byte strings themselves. A type of keys is `ByteOrdered` when each of its values
has octets of its own; texts are, through their UTF-8 form.

`Table` is the map from byte strings to byte strings: what a store keeps.
-/

namespace FileCatalog

/-- Keys that are told apart, and ordered, by octets of their own. -/
class ByteOrdered (κ : Type) where
  bytes : κ → Bytes
  bytes_injective : ∀ {a b : κ}, bytes a = bytes b → a = b

/-- Octets are ordered as they stand. -/
instance : ByteOrdered Bytes := ⟨id, id⟩

/-- Texts are ordered by their octets. -/
instance : ByteOrdered String := ⟨Utf8.encode, Utf8.encode_injective⟩

open ByteOrdered (bytes)

/-- A finite map whose entries are listed by ascending key octets. -/
structure OrderedMap (κ ν : Type) [ByteOrdered κ] where
  /-- The entries, the smallest key first. -/
  entries : List (κ × ν)
  /-- No key stands twice, and each stands after the smaller ones. -/
  ascending : entries.Pairwise (fun a b => bytes a.1 < bytes b.1)

namespace OrderedMap

variable {κ ν : Type} [ByteOrdered κ]

/-- A map is its entries. -/
@[ext] theorem ext {m n : OrderedMap κ ν} (h : m.entries = n.entries) : m = n := by
  cases m; cases n; cases h; rfl

instance [DecidableEq κ] [DecidableEq ν] : DecidableEq (OrderedMap κ ν) := fun m n =>
  decidable_of_iff (m.entries = n.entries) ⟨ext, fun h => h ▸ rfl⟩

/-- The map without entries. -/
def empty : OrderedMap κ ν := ⟨[], .nil⟩

instance : EmptyCollection (OrderedMap κ ν) := ⟨empty⟩

instance : Inhabited (OrderedMap κ ν) := ⟨empty⟩

/-- The number of entries. -/
def size (m : OrderedMap κ ν) : Nat := m.entries.length

/-- The keys, ascending. -/
def keys (m : OrderedMap κ ν) : List κ := m.entries.map (·.1)

/-- The values, in the order of their keys. -/
def values (m : OrderedMap κ ν) : List ν := m.entries.map (·.2)

/-- The value under a key. -/
def get? (m : OrderedMap κ ν) (k : κ) : Option ν :=
  (m.entries.find? fun e => bytes e.1 = bytes k).map (·.2)

/-- The entries whose keys come before `k`. -/
def below (m : OrderedMap κ ν) (k : κ) : List (κ × ν) :=
  m.entries.filter fun e => bytes e.1 < bytes k

/-- The entries whose keys come after `k`. -/
def above (m : OrderedMap κ ν) (k : κ) : List (κ × ν) :=
  m.entries.filter fun e => bytes k < bytes e.1

/-- The map with `v` under `k`, whatever was there before. -/
def insert (m : OrderedMap κ ν) (k : κ) (v : ν) : OrderedMap κ ν where
  entries := m.below k ++ (k, v) :: m.above k
  ascending := by
    rw [List.pairwise_append, List.pairwise_cons]
    refine ⟨m.ascending.filter _, ⟨fun e he => ?_, m.ascending.filter _⟩, fun a ha b hb => ?_⟩
    · simpa [above] using (List.mem_filter.1 he).2
    · have hak : bytes a.1 < bytes k := by simpa using (List.mem_filter.1 ha).2
      rcases List.mem_cons.1 hb with rfl | hb
      · exact hak
      · exact List.lt_trans hak (by simpa using (List.mem_filter.1 hb).2)

/-- The map without a key. -/
def erase (m : OrderedMap κ ν) (k : κ) : OrderedMap κ ν where
  entries := m.entries.filter fun e => bytes e.1 ≠ bytes k
  ascending := m.ascending.filter _

/-- The map that holds the given pairs, of pairs with one key the last. -/
def ofList (pairs : List (κ × ν)) : OrderedMap κ ν :=
  pairs.foldl (fun m e => m.insert e.1 e.2) empty

/-- The entries whose keys lie from `first` to `last`, both included. -/
def range (m : OrderedMap κ ν) (first last : Bytes) : List (κ × ν) :=
  m.entries.filter fun e => first ≤ bytes e.1 ∧ bytes e.1 ≤ last

end OrderedMap

/-- A map from byte strings to byte strings. -/
abbrev Table := OrderedMap Bytes Bytes

end FileCatalog
