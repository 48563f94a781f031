import FileCatalog.Proofs.KeyOrder
import FileCatalog.Proofs.Refinement
import FileCatalog.Proofs.Scan
import Mathlib.Data.Set.List

/-!
# What scans of records visit

A scan goes by octets, from one key to another; its caller means identities. `range_scans_exact`
says that the two are the same: a scan from one identity to another visits the records that have an
identity between them, each once and in the order of the identities, and nothing else. A scan of the
whole collection visits all of them, and the count of a collection is their number.

The catalog that a session represents tells which records there are. Each stands under its own
identity (`Records.Keyed`), so the entries between the bounds of a collection are those of its
records in order (`Records.HeldBy.exists_lists`). A narrower scan takes the part of this list that
its keys cut out, and by the order of keys that is the part between its identities.

The main statement is about visitors that never stop. One that stops is offered the same records
(`Records.Lists.rangeRecords_eq`) and sees the first of them.
-/

namespace FileCatalog

namespace Scan

variable {σ α β ε : Type}

/-- Items that were written, and can be read, are offered as they were before. -/
theorem walk_decoding_map {read : α → Except StoreError β} {write : β → α}
    (visit : Visitor σ β (ScanFault ε)) (s : σ) {items : List β}
    (readable : ∀ b ∈ items, read (write b) = .ok b) :
    walk (decoding read visit) s (items.map write) = walk visit s items := by
  induction items generalizing s with
  | nil => rfl
  | cons b rest ih =>
    have offered : decoding read visit s (write b) = visit s b := by
      rw [decoding, readable b List.mem_cons_self]
    rw [List.map_cons, walk, walk, offered]
    rcases visit s b with ⟨s', _ | _ | e⟩
    · exact ih s' fun b' hb => readable b' (List.mem_cons_of_mem _ hb)
    · rfl
    · rfl

end Scan

/-! ## Between two identities -/

namespace Collection

variable (c : Collection)

/-- The first identity is the second or comes before it. -/
def notAfter (a b : c.Identity) : Prop := a = b ∨ c.before a b

/-- The identity lies between two others, both included, or from the first one on. -/
def Between (first : c.Identity) (last : Option c.Identity) (id : c.Identity) : Prop :=
  c.notAfter first id ∧ ∀ bound ∈ last, c.notAfter id bound

instance (a b : c.Identity) : Decidable (c.notAfter a b) := by unfold notAfter; infer_instance

instance (first : c.Identity) (last : Option c.Identity) : DecidablePred (c.Between first last) :=
  fun id => by unfold Between; infer_instance

/-- The records that have an identity between two others. -/
def slice (first : c.Identity) (last : Option c.Identity) (rs : List c.Record) : List c.Record :=
  rs.filter fun r => c.Between first last (c.identity r)

/-- A slice has records of the list only. -/
theorem slice_subset (first : c.Identity) (last : Option c.Identity) (rs : List c.Record) :
    c.slice first last rs ⊆ rs :=
  List.filter_sublist.subset

/-- The identity that comes before all others. -/
def smallest : (c : Collection) → c.Identity
  | inode => 0
  | dentry => ⟨0, ""⟩
  | attributes => 0
  | upload => ⟨"", ""⟩

/-- No identity is before the smallest. -/
theorem notAfter_smallest (id : c.Identity) : c.notAfter c.smallest id := by
  have word : ∀ n : UInt64, 0 = n ∨ 0 < n := fun n => by
    rw [← UInt64.toNat_inj, UInt64.lt_iff_toNat_lt, UInt64.toNat_zero]
    omega
  have octets : ∀ text : String, "" = text ∨ Utf8.encode "" < Utf8.encode text := fun text => by
    rcases OrderedMap.bytes_cases (Utf8.encode "") (Utf8.encode text) with before | same | after
    · exact Or.inr before
    · exact Or.inl (Utf8.encode_injective same)
    · exact absurd after (List.not_lt_nil _)
  cases c with
  | inode | attributes => exact word id
  | dentry =>
    obtain ⟨parent, name⟩ := id
    rcases word parent with rfl | parent
    · rcases octets name with rfl | name
      · exact Or.inl rfl
      · exact Or.inr (Or.inr ⟨rfl, name⟩)
    · exact Or.inr (Or.inl parent)
  | upload =>
    obtain ⟨key, upload⟩ := id
    rcases octets key with rfl | longer
    · rcases octets upload with rfl | upload
      · exact Or.inl rfl
      · exact Or.inr (Or.inr ⟨rfl, Or.inr ⟨rfl, upload⟩⟩)
    · have octet : Utf8.encode key ≠ [] := fun empty => by
        rw [empty] at longer
        exact List.not_lt_nil _ longer
      exact Or.inr (Or.inl (List.length_pos_iff.mpr octet))

/-- From the smallest identity on, the slice is the whole list. -/
theorem slice_smallest (rs : List c.Record) : c.slice c.smallest none rs = rs := by
  refine List.filter_eq_self.mpr fun r _ => decide_eq_true ?_
  exact ⟨c.notAfter_smallest (c.identity r), by simp⟩

end Collection

namespace Key

variable {c : Collection}

theorem isProper_smallest (c : Collection) : IsProper c c.smallest := by
  cases c with
  | upload => exact Nat.zero_le _
  | _ => trivial

/-- Keys of a collection compare as their identities, equality included. -/
theorem of_le_of_iff {a b : c.Identity} (ha : IsProper c a) (hb : IsProper c b) :
    of c a ≤ of c b ↔ c.notAfter a b := by
  rw [List.le_iff_lt_or_eq, of_lt_of_iff ha hb, Collection.notAfter, or_comm]
  exact or_congr_left ⟨of_injective ha hb, congrArg (of c)⟩

/-- The key lies between those of two identities exactly if its identity lies between them. -/
theorem between_iff {first id : c.Identity} {last : Option c.Identity} (hf : IsProper c first)
    (hl : ∀ bound ∈ last, IsProper c bound) (hid : IsProper c id) :
    (of c first ≤ of c id ∧ of c id ≤ Target.lastKey c last) ↔ c.Between first last id := by
  rw [of_le_of_iff hf hid, Collection.Between]
  refine and_congr_right fun _ => ?_
  cases last with
  | none => simp [Target.lastKey, List.le_of_lt (of_lt_boundary c id)]
  | some bound => simp [Target.lastKey, of_le_of_iff hid (hl bound rfl)]

end Key

/-! ## The records there are -/

namespace Records

/-- Every record has a property that can tell of the identity it stands under. -/
def Each (P : (c : Collection) → c.Identity → c.Record → Prop) (m : Records) : Prop :=
  ∀ ⦃c : Collection⦄ ⦃id : c.Identity⦄ ⦃r : c.Record⦄, (m c).lookup id = some r → P c id r

/-- Every record stands under its own identity. -/
def Keyed (m : Records) : Prop :=
  ∀ ⦃c : Collection⦄ ⦃id : c.Identity⦄ ⦃r : c.Record⦄, (m c).lookup id = some r → c.identity r = id

/-- Where there are no records, each is under its identity. -/
theorem keyed_empty : Keyed fun _ => ∅ := fun _ _ _ found => nomatch found

/-- What holds of each record holds after one of them is set, if it does of the new one. -/
theorem Each.set {P : (c : Collection) → c.Identity → c.Record → Prop} {m : Records} (h : m.Each P)
    {c : Collection} {id : c.Identity} {r? : Option c.Record}
    (new : ∀ r, r? = some r → P c id r) : (m.set c id r?).Each P :=
  fun _ _ _ found => of_lookup_set (fun before => h before) new found

/-- The list has every record of a collection once, in the order of the identities. -/
structure Lists (m : Records) (c : Collection) (rs : List c.Record) : Prop where
  ascending : rs.Pairwise fun a b => c.before (c.identity a) (c.identity b)
  live : ∀ {id : c.Identity} {r : c.Record},
    (m c).lookup id = some r ↔ r ∈ rs ∧ c.identity r = id

end Records

namespace Catalog

variable {cat : Catalog}

section Each

variable {P : (c : Collection) → c.Identity → c.Record → Prop}

/-- A write of the catalog keeps what holds of each record, if it does of the one written. -/
private theorem write_each (h : cat.records.Each P) {c : Collection} {id : c.Identity}
    {r? : Option c.Record} (new : ∀ r, r? = some r → P c id r) :
    (cat.write c id r?).1.records.Each P := by
  unfold write
  split
  · exact h
  · exact h.set new

/-- What holds of the records that are accepted holds of all records. -/
theorem perform_each (accepted : ∀ {c : Collection} {r : c.Record}, fault? c r = none →
    P c (c.identity r) r) (h : cat.records.Each P) (op : Operation) :
    (cat.perform op).1.records.Each P := by
  have written : ∀ {c : Collection} {r : c.Record}, fault? c r = none →
      (cat.write c (c.identity r) (some r)).1.records.Each P := fun faultless =>
    write_each h fun r' same => Option.some.inj same ▸ accepted faultless
  cases op with
  | put c r =>
    simp only [perform]
    split
    · exact h
    · exact written ‹_›
  | create c r =>
    simp only [perform]
    split
    · exact h
    · split
      · exact h
      · exact written ‹_›
  | delete c id =>
    refine write_each h fun r same => ?_
    cases same
  | _ => exact h

/-- What each accepted record satisfies is satisfied by all records after any operations. -/
theorem run_each (accepted : ∀ {c : Collection} {r : c.Record}, fault? c r = none →
    P c (c.identity r) r) (h : cat.records.Each P) (ops : List Operation) :
    (cat.run ops).1.records.Each P := by
  induction ops generalizing cat with
  | nil => exact h
  | cons op rest ih => exact ih (perform_each accepted h op)

end Each

/-- Operations keep each record under its own identity. -/
theorem run_keyed (h : cat.records.Keyed) (ops : List Operation) :
    (cat.run ops).1.records.Keyed :=
  run_each (P := fun c id r => c.identity r = id) (fun _ => rfl) h ops

end Catalog

/-! ## The entries of a collection -/

/-- What a table has for a record. -/
def Collection.entry (c : Collection) (r : c.Record) : Bytes × Bytes :=
  (Key.ofRecord c r, c.encode r)

namespace Records

variable {m : Records} {t : Table} {c : Collection} {rs : List c.Record}

/-- Every entry between the bounds of a collection is that of a record. -/
private theorem HeldBy.exists_entries (h : m.HeldBy t) (keyed : m.Keyed) (c : Collection) :
    ∃ rs : List c.Record, (∀ r ∈ rs, (m c).lookup (c.identity r) = some r) ∧
      t.range c.least c.boundary = rs.map c.entry := by
  let Live := { r : c.Record // (m c).lookup (c.identity r) = some r }
  have each : ∀ e ∈ t.range c.least c.boundary, e ∈ Set.range fun r : Live => c.entry r := by
    rintro ⟨key, value⟩ listed
    obtain ⟨id, member, rfl⟩ := (h.mem_keys_range key).mp (List.mem_map.mpr ⟨_, listed, rfl⟩)
    obtain ⟨r, found⟩ := Finmap.mem_iff.mp member
    have stored := OrderedMap.get?_eq_some_iff.mpr (OrderedMap.mem_range.mp listed).1
    rw [h.value (h.proper member), found, Option.map_some, Option.some.injEq] at stored
    obtain rfl := keyed found
    exact ⟨⟨r, found⟩, Prod.ext rfl stored⟩
  obtain ⟨lives, entries⟩ : t.range c.least c.boundary ∈ Set.range (List.map _) := by
    rw [Set.range_list_map]
    exact each
  refine ⟨lives.map Subtype.val, fun r hr => ?_, ?_⟩
  · obtain ⟨live, -, rfl⟩ := List.mem_map.mp hr
    exact live.2
  · rw [List.map_map]
    exact entries.symm

/-- The entries between the bounds of a collection are those of its records, in order. -/
theorem HeldBy.exists_lists (h : m.HeldBy t) (keyed : m.Keyed) (c : Collection) :
    ∃ rs, m.Lists c rs ∧ t.range c.least c.boundary = rs.map c.entry := by
  obtain ⟨rs, live, entries⟩ := h.exists_entries keyed c
  have proper : ∀ r ∈ rs, Key.IsProper c (c.identity r) := fun r hr =>
    h.proper (Finmap.mem_of_lookup_eq_some (live r hr))
  refine ⟨rs, ⟨?ascending, fun {id r} => ⟨fun found => ?listed, ?live⟩⟩, entries⟩
  case ascending =>
    have asc := t.ascending_range c.least c.boundary
    rw [entries, List.pairwise_map] at asc
    exact asc.imp_of_mem fun ha hb => (Key.of_lt_of_iff (proper _ ha) (proper _ hb)).mp
  case listed =>
    have member := Finmap.mem_of_lookup_eq_some found
    have key := (h.mem_keys_range _).mpr ⟨id, member, rfl⟩
    rw [entries, List.map_map, List.mem_map] at key
    obtain ⟨r', hr', same⟩ := key
    have identity := Key.of_injective (proper r' hr') (h.proper member) same
    -- One identity, one record: the listed one is the one that was found.
    have value := live r' hr'
    rw [identity, found] at value
    rw [Option.some.inj value]
    exact ⟨hr', identity⟩
  case live =>
    rintro ⟨hr, rfl⟩
    exact live r hr

end Records

/-! ## The scans of a snapshot -/

/-- All that the scans of a collection visit, told by the list of its records. A visitor that never
stops visits the records it asks for in the order of the list, and meets no error. -/
structure Snapshot.Shows (view : Snapshot) (c : Collection) (rs : List c.Record) : Prop where
  /-- Between the bounds of the collection are its records and nothing else. -/
  entries : view.table.range c.least c.boundary = rs.map c.entry
  range : ∀ {σ ε : Type} {visit : Scan.Visitor σ c.Record (ScanFault ε)}, Scan.Tireless visit →
    ∀ {first : c.Identity} {last : Option c.Identity}, Key.IsProper c first →
      (∀ bound ∈ last, Key.IsProper c bound) → ∀ state,
        view.rangeRecords c first last visit state =
          Scan.visited visit state (c.slice first last rs)
  inverted : ∀ {first last : c.Identity}, Key.IsProper c first → Key.IsProper c last →
    c.before last first →
      ∀ {σ ε : Type} (visit : Scan.Visitor σ c.Record (ScanFault ε)) (state : σ),
        view.rangeRecords c first (some last) visit state = (state, none)
  scan : ∀ {σ ε : Type} {visit : Scan.Visitor σ c.Record (ScanFault ε)}, Scan.Tireless visit →
    ∀ state, view.scan c visit state = Scan.visited visit state rs
  whole : ∀ {σ ε : Type} (visit : Scan.Visitor σ c.Record (ScanFault ε)) (state : σ),
    view.scan c visit state = view.rangeRecords c c.smallest none visit state
  count : view.count c = rs.length

namespace Records.Lists

variable {m : Records} {view : Snapshot} {c : Collection} {rs : List c.Record} {σ ε : Type}

/-- The records of a list that a table holds have proper identities. -/
theorem proper (lists : m.Lists c rs) (held : m.HeldBy view.table) {r : c.Record} (hr : r ∈ rs) :
    Key.IsProper c (c.identity r) :=
  held.proper (Finmap.mem_of_lookup_eq_some (lists.live.mpr ⟨hr, rfl⟩))

/-- Between the keys of two identities are the records that have an identity between them. -/
theorem range_eq (lists : m.Lists c rs) (held : m.HeldBy view.table)
    (entries : view.table.range c.least c.boundary = rs.map c.entry) {first : c.Identity}
    {last : Option c.Identity} (hf : Key.IsProper c first)
    (hl : ∀ bound ∈ last, Key.IsProper c bound) :
    view.table.range (Key.of c first) (Target.lastKey c last) =
      (c.slice first last rs).map c.entry := by
  have above : c.least ≤ Key.of c first := List.le_of_lt (Key.least_lt_of c first)
  have below : Target.lastKey c last ≤ c.boundary := Target.lastKey_le_boundary c last
  rw [OrderedMap.range_eq_filter_range above below, entries, List.filter_map, Collection.slice]
  refine congrArg (List.map c.entry) (List.filter_congr fun r hr => ?_)
  exact decide_eq_decide.mpr (Key.between_iff hf hl (lists.proper held hr))

/-- A scan of the octets of records walks the records: all of them can be read. -/
theorem rangeBytes_eq (lists : m.Lists c rs) (held : m.HeldBy view.table) {first last : Bytes}
    {part : List c.Record} (entries : view.table.range first last = part.map c.entry)
    (listed : part ⊆ rs) (visit : Scan.Visitor σ c.Record (ScanFault ε)) (state : σ) :
    view.rangeBytes first last (Scan.decoding c.decode visit) state =
      Scan.walk visit state part := by
  have values : view.table.valuesIn first last = part.map c.encode := by
    rw [Table.valuesIn, entries, List.map_map]
    rfl
  rw [Snapshot.rangeBytes, values]
  refine Scan.walk_decoding_map visit state fun r hr => ?_
  exact Collection.decode_encode (held.fits (lists.live.mpr ⟨listed hr, rfl⟩))

/-- A scan from one identity to another walks the records between them, whatever the visitor. -/
theorem rangeRecords_eq (lists : m.Lists c rs) (held : m.HeldBy view.table)
    (entries : view.table.range c.least c.boundary = rs.map c.entry) {first : c.Identity}
    {last : Option c.Identity} (hf : Key.IsProper c first)
    (hl : ∀ bound ∈ last, Key.IsProper c bound) (visit : Scan.Visitor σ c.Record (ScanFault ε))
    (state : σ) :
    view.rangeRecords c first last visit state =
      Scan.walk visit state (c.slice first last rs) := by
  have part := lists.range_eq held entries hf hl
  have walked := lists.rangeBytes_eq held part (c.slice_subset first last rs) visit state
  cases last <;> exact walked

/-- The scans of a snapshot that holds the records visit what their list says. -/
theorem shows (lists : m.Lists c rs) (held : m.HeldBy view.table)
    (entries : view.table.range c.least c.boundary = rs.map c.entry) : view.Shows c rs := by
  have scanned : ∀ {σ ε : Type} (visit : Scan.Visitor σ c.Record (ScanFault ε)) (state : σ),
      view.scan c visit state = Scan.walk visit state rs := fun visit state =>
    lists.rangeBytes_eq held entries (List.Subset.refl rs) visit state
  refine ⟨entries, ?range, ?inverted, ?scan, ?whole, ?count⟩
  case range =>
    intro σ ε visit tireless first last hf hl state
    rw [lists.rangeRecords_eq held entries hf hl, tireless.walk_eq]
  case inverted =>
    intro first last hf hl before σ ε visit state
    have none : view.table.valuesIn (Key.of c first) (Key.of c last) = [] := by
      rw [Table.valuesIn, OrderedMap.range_of_lt ((Key.of_lt_of_iff hl hf).mpr before)]
      rfl
    simp only [Snapshot.rangeRecords, Snapshot.rangeBytes, none, Scan.walk]
  case scan =>
    intro σ ε visit tireless state
    rw [scanned, tireless.walk_eq]
  case whole =>
    intro σ ε visit state
    have unbounded : ∀ bound ∈ (none : Option c.Identity), Key.IsProper c bound := by simp
    rw [scanned, lists.rangeRecords_eq held entries (Key.isProper_smallest c) unbounded,
      c.slice_smallest]
  case count => rw [Snapshot.count_eq, entries, List.length_map]

end Records.Lists

/-- **Scans of records are exact.** After any run of operations on records that leaves the store in
use, every collection has a list of its records, each once and in the order of their identities, and
the scans of the store and of a snapshot visit what the list says. -/
theorem range_scans_exact (base : String) (writeBuffer : UInt64) {ops : List Catalog.Operation}
    (bounded : ∀ op ∈ ops, op.IsBounded) (inUse : (Catalog.empty.run ops).1.isClosed = false)
    (c : Collection) :
    let store := ((Session.start base writeBuffer).run (ops.map Catalog.Operation.step)).1.store
    ∃ rs view, (Catalog.empty.run ops).1.records.Lists c rs ∧
      store.snapshot = .ok view ∧ view.Shows c rs ∧ store.count c = .ok rs.length ∧
      ∀ {σ ε : Type} (first : c.Identity) (last : Option c.Identity)
        (visit : Scan.Visitor σ c.Record (ScanFault ε)) (state : σ),
          store.range c first last visit state = view.rangeRecords c first last visit state := by
  intro store
  have ran := ((Catalog.represents_start base writeBuffer).run bounded).1
  have start : Catalog.empty.records.Keyed := Records.keyed_empty
  obtain ⟨rs, lists, entries⟩ := ran.held.exists_lists (Catalog.run_keyed start ops) c
  let view : Snapshot := ⟨store.directory, store.committed⟩
  have taken : store.snapshot = .ok view := Store.snapshot_of_inUse (ran.isClosed.trans inUse)
  have shows : view.Shows c rs := lists.shows ran.held entries
  refine ⟨rs, view, lists, taken, shows, ?_, ?_⟩
  · rw [Store.count, taken, ← shows.count]
    rfl
  · intro σ ε first last visit state
    rw [Store.range, taken]

/-- The only entry left in a directory is visited alone: an inode has a key before it, an upload and
the log position have keys behind it, and its neighbour has been deleted. -/
theorem range_scans_only_entry :
    let ops : List Catalog.Operation :=
      [.put .inode { number := 7 }, .setApplyIndex 9, .put .dentry ⟨7, "a", 8, 0⟩,
        .create .dentry ⟨7, "b", 9, 0⟩, .put .upload { key := "k", upload := "u" }, .flush,
        .delete .dentry ⟨7, "b"⟩]
    let store := ((Session.start "/data" 64).run (ops.map Catalog.Operation.step)).1.store
    let collect : Scan.Visitor (List Dentry) Dentry (ScanFault Empty) :=
      fun seen d => (seen ++ [d], .more)
    (∀ op ∈ ops, op.IsBounded) ∧ (Catalog.empty.run ops).1.isClosed = false ∧
      store.range .dentry ⟨7, "a"⟩ none collect [] = ([⟨7, "a", 8, 0⟩], none) := by
  intro ops store collect
  have text : ∀ s : String, (Utf8.encode s).length ≤ 1 → Text.Fits s := fun s short =>
    Nat.lt_of_le_of_lt short (by decide)
  have inode : Inode.Fits { number := 7 } := ⟨by decide, by decide⟩
  have upload : Upload.Fits { key := "k", upload := "u" } :=
    ⟨text _ (by decide), text _ (by decide), by decide, nofun, by decide, nofun⟩
  have bounded : ∀ op ∈ ops, op.IsBounded := by
    simp [ops, Catalog.Operation.IsBounded, Collection.Fits, Key.IsProper, inode, upload,
      text "a" (by decide), text "b" (by decide)]
  have inUse : (Catalog.empty.run ops).1.isClosed = false := rfl
  obtain ⟨rs, view, lists, taken, shows, count, agree⟩ :=
    range_scans_exact "/data" 64 bounded inUse .dentry
  have found : ((Catalog.empty.run ops).1.records .dentry).lookup ⟨7, "a"⟩ =
    some ⟨7, "a", 8, 0⟩ := by decide
  have one : rs.length = 1 := by
    have counted : store.count .dentry = .ok 1 := by decide +kernel
    exact Except.ok.inj (count.symm.trans counted)
  obtain ⟨d, rfl⟩ := List.length_eq_one_iff.mp one
  obtain rfl := List.mem_singleton.mp (lists.live.mp found).1
  refine ⟨bounded, inUse, ?_⟩
  have tireless : Scan.Tireless collect := fun _ _ => rfl
  rw [agree, shows.range tireless trivial (by simp)]
  decide

end FileCatalog
