import FileCatalog.Proofs.Course
import FileCatalog.Proofs.Refinement

/-!
# What belongs to a collection

A collection is told by the first octet of a key. Its scans go by bounds instead: from the byte of
the collection alone to the next byte alone, both included. The two say the same of every key but
one (`Key.between_bounds_iff`). The upper bound is itself a byte string that a caller can store
something under, and then it is scanned with the collection, although it begins with another octet.

So the entries that a collection scans are its own, and behind them the one under its boundary, if
there is one (`Table.range_eq_owned_append`). `Snapshot.VisitsOwned` says so of the three scans that
go to the end of a collection, with any visitor. `collections_apart_but_for_boundaries` tells from
it what the counts of a store and of its snapshots are, when they are the numbers of own entries,
and which entries are scanned with two collections: those under a boundary that is also the least
key of the next collection. Records stand under longer keys, so a table of records has no such
entry.
-/

namespace FileCatalog

namespace Key

/-- Between the bounds of a collection lie the keys that begin with its byte, and its boundary. -/
theorem between_bounds_iff (c : Collection) (key : Bytes) :
    c.least ≤ key ∧ key ≤ c.boundary ↔ key.head? = some c.byte ∨ key = c.boundary := by
  cases key with
  | nil =>
    have after : ¬ c.least ≤ [] := fun h => List.cons_ne_nil _ _ (List.le_nil.mp h)
    simp [after, Collection.boundary]
  | cons b rest =>
    by_cases ends : rest = []
    · subst ends
      have bounds : c.least ≤ [b] ∧ [b] ≤ c.boundary ↔ c.byte ≤ b ∧ b ≤ c.byte + 1 := by
        simp [Collection.least, Collection.boundary, List.cons_le_cons_iff, UInt8.le_iff_lt_or_eq]
      have small : c.byte.toNat < 4 := c.byte_lt
      have one : (1 : UInt8).toNat = 1 := rfl
      rw [bounds, Collection.boundary, List.head?_cons, Option.some.injEq, List.cons.injEq,
        ← UInt8.toNat_inj, ← UInt8.toNat_inj, UInt8.le_iff_toNat_le, UInt8.le_iff_toNat_le,
        UInt8.toNat_add]
      simp only [and_true]
      omega
    · have longer : b :: rest ≠ c.boundary := fun same => ends (List.cons.inj same).2
      rw [cons_between c b ends, List.head?_cons, Option.some.injEq]
      simp only [longer, or_false]

/-- A key that begins with the discriminator of a collection is below its boundary. -/
theorem lt_boundary_of_head? {c : Collection} {key : Bytes} (own : key.head? = some c.byte) :
    key < c.boundary := by
  obtain ⟨rest, rfl⟩ : ∃ rest, key = c.byte :: rest := List.head?_eq_some_iff.mp own
  rw [Collection.boundary, List.cons_lt_cons_iff]
  left
  cases c <;> decide

/-- A key lies between the bounds of two collections only where the one ends and the other
begins. -/
theorem between_both_iff {c c' : Collection} (different : c ≠ c') (key : Bytes) :
    (c.least ≤ key ∧ key ≤ c.boundary) ∧ (c'.least ≤ key ∧ key ≤ c'.boundary) ↔
      key = c.boundary ∧ key = c'.least ∨ key = c'.boundary ∧ key = c.least := by
  rw [between_bounds_iff, between_bounds_iff]
  have apart : ∀ {a b : Collection}, a ≠ b →
      ¬ (key.head? = some a.byte ∧ key.head? = some b.byte) := by
    rintro a b distinct ⟨first, second⟩
    apply distinct
    apply Collection.byte_injective
    exact Option.some.inj (first.symm.trans second)
  have meets : ∀ {a b : Collection}, a ≠ b →
      (key = a.boundary ∧ key.head? = some b.byte ↔ key = a.boundary ∧ key = b.least) := by
    intro a b distinct
    refine and_congr_right ?_
    rintro rfl
    revert distinct
    cases a <;> cases b <;> decide
  have boundaries : ¬ (key = c.boundary ∧ key = c'.boundary) := by
    rintro ⟨rfl, same⟩
    revert different same
    cases c <;> cases c' <;> decide
  constructor
  · rintro ⟨own | last, own' | last'⟩
    · exact absurd ⟨own, own'⟩ (apart different)
    · exact Or.inr ((meets different.symm).mp ⟨last', own⟩)
    · exact Or.inl ((meets different).mp ⟨last, own'⟩)
    · exact absurd ⟨last, last'⟩ boundaries
  · rintro (⟨last, first⟩ | ⟨last, first⟩)
    · exact ⟨Or.inr last, Or.inl ((meets different).mpr ⟨last, first⟩).2⟩
    · exact ⟨Or.inl ((meets different.symm).mpr ⟨last, first⟩).2, Or.inr last⟩

end Key

/-! ## The entries of a collection -/

/-- What the four collections have together. -/
def Collection.together (n : Collection → Nat) : Nat :=
  n .inode + n .dentry + n .attributes + n .upload

namespace Table

variable (t : Table) (c : Collection)

/-- The entries whose keys begin with the byte of the collection. -/
def owned : List (Bytes × Bytes) := t.entries.filter fun e => e.1.head? = some c.byte

/-- The entry under a key, if there is one. -/
def entryUnder (key : Bytes) : List (Bytes × Bytes) :=
  ((t.get? key).map fun value => (key, value)).toList

variable {t c}

/-- The entries of a collection are those whose keys begin with its discriminator. -/
theorem mem_owned {e : Bytes × Bytes} :
    e ∈ t.owned c ↔ e ∈ t.entries ∧ e.1.head? = some c.byte := by
  simp [owned]

theorem mem_entryUnder {key : Bytes} {e : Bytes × Bytes} :
    e ∈ t.entryUnder key ↔ e ∈ t.entries ∧ e.1 = key := by
  rw [entryUnder, Option.mem_toList, Option.map_eq_some_iff]
  constructor
  · rintro ⟨value, found, rfl⟩
    exact ⟨OrderedMap.get?_eq_some_iff.mp found, rfl⟩
  · rintro ⟨entry, rfl⟩
    exact ⟨e.2, OrderedMap.get?_eq_some_iff.mpr entry, rfl⟩

variable (t c)

/-- A collection scans its own entries, and behind them the one under its boundary. -/
theorem range_eq_owned_append :
    t.range c.least c.boundary = t.owned c ++ t.entryUnder c.boundary := by
  have ascending : (t.owned c ++ t.entryUnder c.boundary).Pairwise fun a b => a.1 < b.1 := by
    refine List.pairwise_append.mpr ⟨t.ascending.filter _, ?_, ?_⟩
    · unfold entryUnder
      cases t.get? c.boundary with
      | none => exact .nil
      | some value => exact List.pairwise_singleton _ _
    · intro a own b last
      rw [(mem_entryUnder.mp last).2]
      exact Key.lt_boundary_of_head? (mem_owned.mp own).2
  apply OrderedMap.eq_of_mem_iff (t.ascending_range c.least c.boundary) ascending
  intro e
  rw [OrderedMap.mem_range, List.mem_append, mem_owned, mem_entryUnder, ← and_or_left]
  exact and_congr_right fun _ => Key.between_bounds_iff c e.1

/-- From a key on the scans of a collection come by those of its own entries that are left, and
behind them by the one under its boundary. -/
theorem range_toEnd {first : Bytes} (above : c.least ≤ first) (below : first ≤ c.boundary) :
    t.range first c.boundary =
      (t.owned c).filter (first ≤ ·.1) ++ t.entryUnder c.boundary := by
  have own : (t.owned c).filter (fun e => first ≤ e.1 ∧ e.1 ≤ c.boundary) =
      (t.owned c).filter (first ≤ ·.1) := by
    refine List.filter_congr fun e member => ?_
    have within := List.le_of_lt (Key.lt_boundary_of_head? (mem_owned.mp member).2)
    rw [decide_eq_decide]
    exact and_iff_left within
  have last : (t.entryUnder c.boundary).filter (fun e => first ≤ e.1 ∧ e.1 ≤ c.boundary) =
      t.entryUnder c.boundary := by
    refine List.filter_eq_self.mpr fun e member => ?_
    rw [(mem_entryUnder.mp member).2]
    exact decide_eq_true ⟨below, List.le_refl _⟩
  rw [OrderedMap.range_eq_filter_range above (List.le_refl _), range_eq_owned_append,
    List.filter_append]
  exact congrArg₂ _ own last

/-- The number of entries that a collection scans. -/
def scanned : Nat := (t.owned c).length + (t.entryUnder c.boundary).length

/-- The length of the range of a collection is what a count tells. -/
theorem length_range_eq : (t.range c.least c.boundary).length = t.scanned c := by
  rw [range_eq_owned_append, List.length_append, scanned]

/-- A count is exact exactly if nothing stands under the boundary. -/
theorem scanned_eq_owned_iff : t.scanned c = (t.owned c).length ↔ t.get? c.boundary = none := by
  unfold scanned entryUnder
  cases t.get? c.boundary with
  | none => simp
  | some value => simp

/-- An octet is the byte of one collection at most. -/
private theorem together_owners_le (octet : Option UInt8) :
    Collection.together (fun c => if octet = some c.byte then 1 else 0) ≤ 1 := by
  by_cases owner : ∃ c : Collection, octet = some c.byte
  · obtain ⟨c, rfl⟩ := owner
    cases c <;> decide
  · rw [not_exists] at owner
    simp only [owner, if_false]
    decide

/-- No entry belongs to two collections. -/
theorem together_owned_le_size : Collection.together (fun c => (t.owned c).length) ≤ t.size := by
  unfold owned OrderedMap.size
  induction t.entries with
  | nil => decide
  | cons e rest ih =>
    have first := together_owners_le e.1.head?
    have parts : ∀ c : Collection,
        ((e :: rest).filter fun e => e.1.head? = some c.byte).length =
          (if e.1.head? = some c.byte then 1 else 0) +
            (rest.filter fun e => e.1.head? = some c.byte).length := by
      intro c
      by_cases own : e.1.head? = some c.byte
      · rw [List.filter_cons_of_pos (by simpa using own), if_pos own, List.length_cons,
          Nat.add_comm]
      · rw [List.filter_cons_of_neg (by simpa using own), if_neg own, Nat.zero_add]
    simp only [Collection.together] at first ih ⊢
    rw [parts, parts, parts, parts, List.length_cons]
    omega

end Table

/-- A table of records holds nothing under the boundary of a collection. -/
theorem Records.HeldBy.get?_boundary {m : Records} {t : Table} (h : m.HeldBy t) (c : Collection) :
    t.get? c.boundary = none := by
  cases found : t.get? c.boundary with
  | none => rfl
  | some value =>
    exfalso
    have single : c.boundary.tail = [] := rfl
    rcases h.known found with index | ⟨c', id, -, key⟩
    · rw [index] at single
      exact absurd single (by decide)
    · rw [key] at single
      exact Key.ofIdentity_ne_nil c' id single

namespace Session

variable (s : Session) (c : Collection)

/-- A count of the store is one of the committed table. -/
theorem step_count :
    (s.step (.count c)).2 =
      if s.store.isClosed then .failed .closed else .number (s.store.committed.scanned c) := by
  rw [step, Store.count]
  cases released : s.store.isClosed with
  | true =>
    rw [Store.snapshot_of_released released]
    rfl
  | false =>
    rw [Store.snapshot_of_inUse released, ← Table.length_range_eq]
    exact congrArg Reply.number (Snapshot.count_eq _ c)

/-- A count of a snapshot is one of the table that it holds. -/
theorem step_snapshotCount {name : String} {view : Snapshot}
    (held : s.snapshot? name = some view) :
    (s.step (.snapshotCount name c)).2 = .number (view.table.scanned c) := by
  simp only [step, askSnapshot, held]
  rw [Snapshot.count_eq, Table.length_range_eq]

end Session

/-- What the scans of the collections have in a table: the own entries of each and the one under its
boundary. The number is that of the own entries exactly when nothing stands under the boundary; then
no entry is scanned twice. An entry is scanned with two collections exactly when its key is the
boundary of the one and the least key of the other. Among records there is no such entry. -/
structure Table.CollectionsApart (t : Table) : Prop where
  scans : ∀ c : Collection, t.range c.least c.boundary = t.owned c ++ t.entryUnder c.boundary
  counts : ∀ c, t.scanned c = (t.owned c).length ↔ t.get? c.boundary = none
  total : (∀ c : Collection, t.get? c.boundary = none) →
    Collection.together t.scanned ≤ t.size
  shared : ∀ {c c' : Collection}, c ≠ c' → ∀ e,
    e ∈ t.range c.least c.boundary ∧ e ∈ t.range c'.least c'.boundary ↔
      e ∈ t.entries ∧ (e.1 = c.boundary ∧ e.1 = c'.least ∨ e.1 = c'.boundary ∧ e.1 = c.least)
  records : ∀ m : Records, m.HeldBy t → ∀ c : Collection, t.get? c.boundary = none

/-- The ranges of the collections share nothing but entries under boundaries. -/
theorem Table.collectionsApart (t : Table) : t.CollectionsApart where
  scans := t.range_eq_owned_append
  counts := t.scanned_eq_owned_iff
  total free := by
    have own : t.scanned = fun c => (t.owned c).length :=
      funext fun c => (t.scanned_eq_owned_iff c).mpr (free c)
    rw [own]
    exact t.together_owned_le_size
  shared different e := by
    rw [OrderedMap.mem_range, OrderedMap.mem_range, ← and_and_left]
    exact and_congr_right fun _ => Key.between_both_iff different e.1
  records m h c := h.get?_boundary c

/-- What the scans of the collections visit in a snapshot, whatever the visitor: the own entries of
a collection, or those that are left from an identity on, and behind them the entry under the
boundary, if there is one. Scans of records read the values of these entries, and end at the first
that holds no record. -/
structure Snapshot.VisitsOwned (view : Snapshot) : Prop where
  values : ∀ {σ ε : Type} (c : Collection) (visit : Scan.Visitor σ Bytes (ScanFault ε)) (state : σ),
    let entries := view.table.owned c ++ view.table.entryUnder c.boundary
    view.rangeCollection c visit state = Scan.present visit none state (entries.map (·.2))
  records : ∀ {σ ε : Type} (c : Collection) (visit : Scan.Visitor σ c.Record (ScanFault ε))
    (state : σ),
    let entries := view.table.owned c ++ view.table.entryUnder c.boundary
    let o := Offer.reading c.decode (entries.map (·.2))
    view.scan c visit state = Scan.present visit o.fault state o.items
  toEnd : ∀ {σ ε : Type} (c : Collection) (first : c.Identity)
    (visit : Scan.Visitor σ c.Record (ScanFault ε)) (state : σ),
    let entries := (view.table.owned c).filter (Key.of c first ≤ ·.1) ++
      view.table.entryUnder c.boundary
    let o := Offer.reading c.decode (entries.map (·.2))
    view.rangeRecords c first none visit state = Scan.present visit o.fault state o.items

/-- Every way to go through a collection of a snapshot visits its entries and that under the
boundary. -/
theorem Snapshot.visitsOwned (view : Snapshot) : view.VisitsOwned where
  values c visit state := by
    rw [rangeCollection, rangeBytes, Scan.walk_eq_present, Table.valuesIn,
      Table.range_eq_owned_append]
  records c visit state := by
    rw [scan, rangeCollection, rangeBytes, Scan.walk_decoding, Table.valuesIn,
      Table.range_eq_owned_append]
  toEnd c first visit state := by
    have above := List.le_of_lt (Key.least_lt_of c first)
    have below := List.le_of_lt (Key.of_lt_boundary c first)
    simp only [rangeRecords, rangeBytes, Scan.walk_decoding, Table.valuesIn,
      Table.range_toEnd _ c above below]

/-- **The collections are apart but for their boundaries.** In every session, whatever the keys in
its tables are, a store in use and every snapshot count for a collection its own entries and the one
under its boundary, and nothing else, and these are the entries that their scans visit. What that
means for the collections together is told by `Table.CollectionsApart`. -/
theorem collections_apart_but_for_boundaries (s : Session) :
    (∀ c, (s.step (.count c)).2 =
      if s.store.isClosed then .failed .closed else .number (s.store.committed.scanned c)) ∧
    (∀ name view c, s.snapshot? name = some view →
      (s.step (.snapshotCount name c)).2 = .number (view.table.scanned c)) ∧
    (∀ t : Table, t.CollectionsApart) ∧ (∀ view : Snapshot, view.VisitsOwned) ∧
    (∀ name view c, s.snapshot? name = some view →
      let entries := view.table.owned c ++ view.table.entryUnder c.boundary
      (s.step (.scan (some name) (.values c) {} [])).2.outer =
        .scanned (entries.map fun e => .value e.2) none none) ∧
    s.ScansCommitted ∧ (s.store.isClosed = false →
      let view : Snapshot := ⟨s.store.directory, s.store.committed⟩
      s.store.snapshot = .ok view ∧
        ∀ {σ ε : Type} (c : Collection) (first : c.Identity) (last : Option c.Identity)
          (visit : Scan.Visitor σ c.Record (ScanFault ε)) (state : σ),
          s.store.range c first last visit state = view.rangeRecords c first last visit state) := by
  refine ⟨s.step_count, fun _ _ c held => s.step_snapshotCount c held, Table.collectionsApart,
    Snapshot.visitsOwned, ?visits, s.scansCommitted, ?store⟩
  case visits =>
    intro name view c held
    rw [s.step_scanSnapshot held, Target.offer, Table.valuesIn, Table.range_eq_owned_append,
      Offer.map, List.map_map]
    rfl
  case store =>
    intro inUse
    refine ⟨Store.snapshot_of_inUse inUse, fun c first last visit state => ?_⟩
    rw [Store.range, Store.snapshot_of_inUse inUse]

/-- A snapshot with one inode key and a value under the byte of the directory entries alone: that
value is counted and visited with both collections, and belongs to one. -/
theorem collections_apart_but_for_one :
    let s := ((Session.start "/data" 100).run
      [.putBytes [0, 7] [9], .putBytes [1] [8], .takeSnapshot "view"]).1
    ∃ view, s.snapshot? "view" = some view ∧
      (s.step (.snapshotCount "view" .inode)).2 = .number 2 ∧
      (s.step (.snapshotCount "view" .dentry)).2 = .number 1 ∧
      (s.step (.scan (some "view") (.values .inode) {} [])).2.outer =
        .scanned [.value [9], .value [8]] none none ∧
      (view.table.owned .inode).length = 1 := by
  intro s
  have held : s.snapshot? "view" = some ⟨s.store.directory, s.store.committed⟩ := rfl
  obtain ⟨-, counts, -, -, visits, -⟩ := collections_apart_but_for_boundaries s
  refine ⟨_, held, ?_, ?_, ?_, ?_⟩
  · rw [counts "view" _ .inode held]
    rfl
  · rw [counts "view" _ .dentry held]
    rfl
  · rw [visits "view" _ .inode held]
    rfl
  · rfl

/-- A value under the byte of the directory entries alone is counted with the inodes too. -/
theorem collections_overlap_at_boundary :
    ¬ ∀ steps, Step.AreOperations steps → ∀ (c : Collection) (n : Nat),
      let s := ((Session.start "/data" 100).run steps).1
      (s.step (.count c)).2 = .number n → n = (s.store.committed.owned c).length := by
  intro counted
  have operations : Step.AreOperations [.putBytes [1] [0x61]] := by
    simp [Step.AreOperations, Step.IsOperation]
  have own := counted [.putBytes [1] [0x61]] operations .inode 1 rfl
  exact absurd own (by decide)

end FileCatalog
