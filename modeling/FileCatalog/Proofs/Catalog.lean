import FileCatalog.Proofs.Keys
import FileCatalog.Proofs.RoundTrip
import FileCatalog.Proofs.Write
import Mathlib.Data.Finmap

/-!
# Four finite maps in one table

A `Catalog` is what the operations on records are about: four finite maps from identities to
records, and whether they can be asked. `Catalog.perform` says what each operation answers and what
it leaves, without keys, octets or log positions; a record is refused by its fields alone
(`Catalog.fault?`).

A table holds the records of a catalog (`Records.HeldBy`) when it has the octets of each under the
key of its identity, and nothing else but the log position. What the table is asked is then answered
from the maps: whether a key is occupied (`HeldBy.occupied_eq`), what record is under it
(`HeldBy.get`), how many values a collection has (`HeldBy.length_range`). Writing a change keeps the
two together (`HeldBy.set`).
-/

namespace FileCatalog

/-- Four finite maps from identities to records, one for each collection. -/
abbrev Records := (c : Collection) → Finmap fun _ : c.Identity => c.Record

/-- Four finite maps, and whether they can be asked. -/
structure Catalog where
  records : Records
  isClosed : Bool := false

/-- The maps with a record under an identity, or with none. -/
def Records.set (m : Records) (c : Collection) (id : c.Identity) (r? : Option c.Record) : Records :=
  Function.update m c <|
    match r? with
    | some r => (m c).insert id r
    | none => (m c).erase id

namespace Catalog

/-- An operation on records, or on the store as a whole. -/
inductive Operation where
  | get (c : Collection) (id : c.Identity)
  | contains (c : Collection) (id : c.Identity)
  | put (c : Collection) (r : c.Record)
  | create (c : Collection) (r : c.Record)
  | delete (c : Collection) (id : c.Identity)
  | count (c : Collection)
  | setApplyIndex (index : UInt64)
  | flush
  | release
  | reopen (writeBuffer : Option UInt64)

/-- The step of a session that asks for the operation. -/
def Operation.step : Operation → Step
  | get c id => .get c id
  | contains c id => .contains c id
  | put c r => .put c r
  | create c r => .create c r
  | delete c id => .delete c id
  | count c => .count c
  | setApplyIndex index => .setApplyIndex index
  | flush => .flush
  | release => .release
  | reopen writeBuffer => .reopen writeBuffer

/-- What the operation is given is of a size that its type promises: the lengths in a record that
is written are words, and the object key of an upload that is looked up or deleted fits the field
for its length. -/
def Operation.IsBounded : Operation → Prop
  | get c id | contains c id | delete c id => Key.IsProper c id
  | put c r | create c r => c.Fits r
  | _ => True

/-- The catalog without records. -/
def empty : Catalog := { records := fun _ => ∅ }

/-- What the store objects to in a record, if anything. -/
def fault? : (c : Collection) → c.Record → Option StoreError
  | .dentry, d =>
    if Char.ofNat 0 ∈ d.name.toList then some (.ofKeyFault (.zeroInName d.name)) else none
  | .upload, u =>
    let length := (Utf8.encode u.key).length
    if UInt32.size ≤ length then some (.ofKeyFault (.objectKeyTooLong length)) else none
  | _, _ => none

/-- The answer of a catalog that can be asked. -/
def ask (cat : Catalog) (reply : Reply) : Reply :=
  if cat.isClosed then .failed .closed else reply

/-- Sets what is under an identity, if the catalog can be changed. -/
def write (cat : Catalog) (c : Collection) (id : c.Identity) (r? : Option c.Record) :
    Catalog × Reply :=
  if cat.isClosed then (cat, .failed .closed)
  else ({ cat with records := cat.records.set c id r? }, .done)

/-- The answer of `get`, by what is there. -/
def recordUnder (c : Collection) (id : c.Identity) : Option c.Record → Reply
  | some r => .record c r
  | none => .failed (.missing c (Key.of c id))

/-- The catalog after an operation on records, and its answer. -/
def perform (cat : Catalog) : Operation → Catalog × Option Reply
  | .get c id => (cat, cat.ask (recordUnder c id ((cat.records c).lookup id)))
  | .contains c id => (cat, cat.ask (.flag ((cat.records c).lookup id).isSome))
  | .put c r =>
    match fault? c r with
    | some e => (cat, some (.failed e))
    | none => (cat.write c (c.identity r) (some r)).map id some
  | .create c r =>
    match fault? c r with
    | some e => (cat, some (.failed e))
    | none =>
      if c.identity r ∈ cat.records c then
        (cat, cat.ask (.failed (.taken c (Key.ofRecord c r))))
      else (cat.write c (c.identity r) (some r)).map id some
  | .delete c identity => (cat.write c identity none).map id some
  | .count c => (cat, cat.ask (.number (cat.records c).keys.card))
  | .setApplyIndex _ => (cat, some .done)
  | .flush => (cat, cat.ask .done)
  | .release => ({ cat with isClosed := true }, some .done)
  | .reopen _ => ({ cat with isClosed := false }, none)

/-- The catalog after operations in turn, and their answers. An opening is answered with the state
of the store, of which the catalog knows nothing. -/
def run (cat : Catalog) : List Operation → Catalog × List (Option Reply)
  | [] => (cat, [])
  | op :: rest =>
    let (cat, answer) := cat.perform op
    let (cat, answers) := cat.run rest
    (cat, answer :: answers)

end Catalog

namespace Records

/-! ## Setting what is under an identity -/

section Set

variable (m : Records) {c : Collection} (id : c.Identity) (r? : Option c.Record)

/-- What was set under an identity is there. -/
@[simp] theorem lookup_set_self : (m.set c id r? c).lookup id = r? := by
  simp only [set, Function.update_self]
  cases r? with
  | some r => exact Finmap.lookup_insert _
  | none => exact Finmap.lookup_erase _ _

/-- Other identities of the collection hold what they held. -/
theorem lookup_set_of_ne {other : c.Identity} (different : other ≠ id) :
    (m.set c id r? c).lookup other = (m c).lookup other := by
  simp only [set, Function.update_self]
  cases r? with
  | some r => exact Finmap.lookup_insert_of_ne _ different
  | none => exact Finmap.lookup_erase_ne different

/-- Other collections are as they were. -/
theorem set_of_ne {c' : Collection} (different : c' ≠ c) : m.set c id r? c' = m c' :=
  Function.update_of_ne different _ _

/-- What holds of the records before and of the one that is set holds of the records after. -/
theorem of_lookup_set {P : (c : Collection) → c.Identity → c.Record → Prop} {m : Records}
    {c : Collection} {id : c.Identity} {r? : Option c.Record}
    (before : ∀ {c' : Collection} {id' : c'.Identity} {r : c'.Record},
      (m c').lookup id' = some r → P c' id' r)
    (new : ∀ r, r? = some r → P c id r) {c' : Collection} {id' : c'.Identity} {r : c'.Record}
    (found : (m.set c id r? c').lookup id' = some r) : P c' id' r := by
  by_cases collection : c' = c
  · subst collection
    by_cases identity : id' = id
    · subst identity
      rw [lookup_set_self] at found
      exact new r found
    · rw [lookup_set_of_ne m id r? identity] at found
      exact before found
  · rw [set_of_ne m id r? collection] at found
    exact before found

end Set

/-! ## Records in a table -/

/-- The table holds the records, each under the key of its identity, and nothing else but the log
position. -/
structure HeldBy (m : Records) (t : Table) : Prop where
  value : ∀ {c : Collection} {id : c.Identity}, Key.IsProper c id →
    t.get? (Key.of c id) = ((m c).lookup id).map c.encode
  known : ∀ {key value : Bytes}, t.get? key = some value →
    key = Key.applyIndex ∨ ∃ c id, Key.IsProper c id ∧ key = Key.of c id
  proper : ∀ {c : Collection} {id : c.Identity}, id ∈ m c → Key.IsProper c id
  fits : ∀ {c : Collection} {id : c.Identity} {r : c.Record}, (m c).lookup id = some r → c.Fits r

/-- The empty table holds no records. -/
theorem heldBy_empty : HeldBy (fun _ => ∅) ∅ where
  value _ := rfl
  known found := nomatch found
  proper found := absurd found Finmap.notMem_empty
  fits found := nomatch found

namespace HeldBy

variable {m : Records} {t : Table} {c : Collection} {id : c.Identity}

/-- A key is occupied when its identity has a record, since no record is written as nothing. -/
theorem occupied_eq (h : m.HeldBy t) (proper : Key.IsProper c id) :
    Store.occupied (t.get? (Key.of c id)) = ((m c).lookup id).isSome := by
  rw [h.value proper]
  cases found : (m c).lookup id with
  | none => rfl
  | some r =>
    have written := Collection.encode_ne_nil (h.fits found)
    simp [Store.occupied, written]

/-- Getting a record is looking it up. -/
theorem get {s : Store} (h : m.HeldBy s.committed) (inUse : s.isClosed = false)
    (proper : Key.IsProper c id) :
    s.get c id = ((m c).lookup id).elim (.error (.missing c (Key.of c id))) .ok := by
  simp only [Store.get, Store.getBytes_of_inUse inUse, bind, Except.bind, h.value proper]
  cases found : (m c).lookup id with
  | none => rfl
  | some r =>
    have fits := h.fits found
    have written : (c.encode r).isEmpty = false := by simpa using Collection.encode_ne_nil fits
    simp only [Option.map_some, written, Collection.decode_encode fits]
    rfl

/-- The keys between the bounds of a collection are those of the identities that have a record. -/
theorem mem_keys_range (h : m.HeldBy t) (key : Bytes) :
    key ∈ (t.range c.least c.boundary).map (·.1) ↔ ∃ id ∈ m c, Key.of c id = key := by
  constructor
  · intro listed
    obtain ⟨⟨key, value⟩, entry, rfl⟩ := List.mem_map.mp listed
    obtain ⟨entry, between⟩ := OrderedMap.mem_range.mp entry
    have found : t.get? key = some value := OrderedMap.get?_eq_some_iff.mpr entry
    rcases h.known found with rfl | ⟨c', id, proper, rfl⟩
    · exact absurd between (Key.applyIndex_not_between c)
    · obtain rfl := (Key.of_between c c' id).mp between
      rw [h.value proper] at found
      obtain ⟨r, lookup, -⟩ := Option.map_eq_some_iff.mp found
      exact ⟨id, Finmap.mem_of_lookup_eq_some lookup, rfl⟩
  · rintro ⟨id, member, rfl⟩
    obtain ⟨r, lookup⟩ := Finmap.mem_iff.mp member
    have found := h.value (h.proper member)
    rw [lookup, Option.map_some] at found
    refine List.mem_map.mpr ⟨(Key.of c id, c.encode r), ?_, rfl⟩
    exact OrderedMap.mem_range.mpr
      ⟨OrderedMap.get?_eq_some_iff.mp found, (Key.of_between c c id).mpr rfl⟩

/-- The values of a collection are as many as the identities that have a record. -/
theorem length_range (h : m.HeldBy t) (c : Collection) :
    (t.range c.least c.boundary).length = (m c).keys.card := by
  have distinct : ((t.range c.least c.boundary).map (·.1)).Nodup := by
    rw [List.Nodup, List.pairwise_map]
    refine (t.ascending_range c.least c.boundary).imp ?_
    intro a b before same
    rw [same] at before
    exact List.lt_irrefl _ before
  have keys : ((t.range c.least c.boundary).map (·.1)).toFinset = (m c).keys.image (Key.of c) := by
    ext key
    rw [List.mem_toFinset, h.mem_keys_range, Finset.mem_image]
    simp only [Finmap.mem_keys]
  have apart : Set.InjOn (Key.of c) ((m c).keys : Set c.Identity) := by
    intro a ha b hb same
    have properA := h.proper (Finmap.mem_keys.mp ha)
    have properB := h.proper (Finmap.mem_keys.mp hb)
    exact Key.of_injective properA properB same
  rw [← Finset.card_image_of_injOn apart, ← keys, List.toFinset_card_of_nodup distinct,
    List.length_map]

/-- A commit of a record's octets, or of a deletion, keeps the table and the maps together. -/
theorem set (h : m.HeldBy t) (proper : Key.IsProper c id) {r? : Option c.Record}
    (fits : ∀ r, r? = some r → c.Fits r) (position : UInt64) :
    (m.set c id r?).HeldBy (Change.record ⟨Key.of c id, r?.map c.encode⟩ position t) where
  value {c' id'} proper' := by
    have data := Key.of_ne_applyIndex c' id'
    by_cases collection : c' = c
    · subst collection
      by_cases identity : id' = id
      · subst identity
        rw [lookup_set_self]
        exact Change.get?_record_self data position t
      · have other : Key.of c' id' ≠ Key.of c' id := fun same =>
          identity (Key.of_injective proper' proper same)
        rw [lookup_set_of_ne m id r? identity, Change.get?_record_of_ne data other]
        exact h.value proper'
    · have other : Key.of c' id' ≠ Key.of c id := fun same => collection (Key.collection_of_eq same)
      rw [set_of_ne m id r? collection, Change.get?_record_of_ne data other]
      exact h.value proper'
  known {key value} found := by
    -- A commit brings its own key and that of the log position, nothing else.
    by_cases index : key = Key.applyIndex
    · exact Or.inl index
    · by_cases own : key = Key.of c id
      · exact Or.inr ⟨c, id, proper, own⟩
      · rw [Change.get?_record_of_ne index own] at found
        exact h.known found
  proper member := by
    obtain ⟨r, found⟩ := Finmap.mem_iff.mp member
    refine of_lookup_set (P := fun c id _ => Key.IsProper c id) ?_ (fun _ _ => proper) found
    intro c' id' r' before
    exact h.proper (Finmap.mem_of_lookup_eq_some before)
  fits found := of_lookup_set (P := fun c _ r => c.Fits r) h.fits fits found

end HeldBy

end Records

end FileCatalog
