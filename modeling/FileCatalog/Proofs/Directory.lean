import FileCatalog.Proofs.Listing
import Mathlib.Data.List.Sort

/-!
# Directory listings of records

Where all values are records that were written as such, a listing is exact: it visits the entries of
its directory, each once and in the order of their names, and meets no error
(`listing_of_records_exact`).

A scan is bounded by keys, but it is a record that tells a listing where the directory ends. The two
agree because every record stands under its own identity. The keys of a directory are then those of
its entries (`Directory.owns_of_iff`), and what closes the scan is an entry of another directory, at
which the listing ends without a fault. So of the two exceptions that listings of any contents have,
neither occurs.

The directories in turn make up the collection (`Records.Lists.flatMap_directories`): entries are
ordered by their directory first.
-/

namespace FileCatalog

namespace Directory

/-- All directories that there can be, in the order of their numbers. -/
def all : List UInt64 := (List.range UInt64.size).map UInt64.ofNat

theorem mem_all (parent : UInt64) : parent ∈ all :=
  List.mem_map.mpr ⟨parent.toNat, List.mem_range.mpr parent.toNat_lt, UInt64.ofNat_toNat⟩

theorem ascending_all : all.Pairwise (· < ·) := by
  rw [all, List.pairwise_map]
  refine List.pairwise_lt_range.imp_of_mem ?_
  intro m n hm hn less
  rw [List.mem_range] at hm hn
  rwa [UInt64.lt_iff_toNat_lt, UInt64.toNat_ofNat_of_lt' hm, UInt64.toNat_ofNat_of_lt' hn]

/-- The keys of a directory are those of its entries. -/
theorem owns_of_iff {parent : UInt64} {id : DentryId} :
    Owns parent (Key.of .dentry id) ↔ id.parent = parent := by
  have key : Key.of .dentry id = front id.parent ++ Utf8.encode id.name := by
    rw [front_eq]
    rfl
  rw [Owns, key]
  constructor
  · intro own
    have same := List.IsPrefix.eq_of_length
      (List.prefix_of_prefix_length_le own (List.prefix_append _ _) (by simp [length_front]))
      (by simp [length_front])
    rw [front_eq, front_eq, List.cons.injEq] at same
    exact (Bytes.bigEndian_word_injective same.2).symm
  · rintro rfl
    exact List.prefix_append _ _

end Directory

namespace Records

/-- The list has every record of a directory once, in the order of the names. -/
structure ListsDirectory (m : Records) (parent : UInt64) (ds : List Dentry) : Prop where
  ascending : ds.Pairwise fun a b => Utf8.encode a.name < Utf8.encode b.name
  home : ∀ d ∈ ds, d.parent = parent
  live : ∀ {name : String} {d : Dentry},
    (m .dentry).lookup ⟨parent, name⟩ = some d ↔ d ∈ ds ∧ d.name = name

namespace Lists

variable {m : Records} {t : Table} {rs : List Dentry}

theorem listsDirectory (lists : m.Lists .dentry rs) (parent : UInt64) :
    m.ListsDirectory parent (rs.filter (·.parent = parent)) where
  ascending := by
    refine (lists.ascending.filter _).imp_of_mem ?_
    intro a b ha hb before
    simp only [List.mem_filter, decide_eq_true_eq] at ha hb
    rcases before with parents | ⟨-, names⟩
    · have less : a.parent < b.parent := parents
      rw [ha.2, hb.2] at less
      exact absurd less (UInt64.lt_irrefl parent)
    · exact names
  home d hd := by simpa using (List.mem_filter.mp hd).2
  live {name d} := by
    rw [lists.live, List.mem_filter, decide_eq_true_eq, and_assoc]
    exact and_congr_right fun _ => Iff.of_eq (DentryId.mk.injEq ..)

/-- The directories in turn make up the collection. -/
theorem flatMap_directories (lists : m.Lists .dentry rs) {ds : UInt64 → List Dentry}
    (directories : ∀ parent, m.ListsDirectory parent (ds parent)) :
    Directory.all.flatMap ds = rs := by
  let before (a b : Dentry) : Prop :=
    Collection.dentry.before (Collection.dentry.identity a) (Collection.dentry.identity b)
  have octets : ∀ a b, before a b ↔ Key.ofRecord .dentry a < Key.ofRecord .dentry b :=
    fun a b => (Key.of_lt_of_iff (c := .dentry) trivial trivial).symm
  have : Std.Irrefl before := ⟨fun a h => List.lt_irrefl _ ((octets a a).mp h)⟩
  have : Std.Antisymm before :=
    ⟨fun a b h h' => absurd ((octets b a).mp h') (List.lt_asymm ((octets a b).mp h))⟩
  refine List.Pairwise.eq_of_mem_iff (r := before) ?ascending lists.ascending ?members
  case ascending =>
    refine List.pairwise_flatMap.mpr ⟨fun parent _ => ?within, ?across⟩
    case within =>
      have directory := directories parent
      refine directory.ascending.imp_of_mem fun ha hb names => Or.inr ⟨?_, names⟩
      exact (directory.home _ ha).trans (directory.home _ hb).symm
    case across =>
      refine Directory.ascending_all.imp fun {p q} less a ha b hb => Or.inl ?_
      obtain rfl := (directories p).home a ha
      obtain rfl := (directories q).home b hb
      exact less
  case members =>
    intro d
    rw [List.mem_flatMap]
    constructor
    · rintro ⟨parent, -, member⟩
      exact (lists.live.mp ((directories parent).live.mpr ⟨member, rfl⟩)).1
    · intro member
      have found := lists.live.mpr ⟨member, rfl⟩
      exact ⟨d.parent, Directory.mem_all _, ((directories d.parent).live.mp found).1⟩

/-- Under the keys of a directory are its records. -/
theorem inDirectory_eq (entries : t.range Collection.dentry.least Collection.dentry.boundary =
      rs.map Collection.dentry.entry) (parent : UInt64) :
    t.inDirectory parent = (rs.filter (·.parent = parent)).map Collection.dentry.entry := by
  have part : t.inDirectory parent =
      (t.range Collection.dentry.least Collection.dentry.boundary).filter
        fun e => Directory.Owns parent e.1 := by
    rw [Table.inDirectory, OrderedMap.range, List.filter_filter]
    refine List.filter_congr fun e _ => ?_
    rw [← Bool.decide_and, decide_eq_decide]
    refine ⟨fun owns => ⟨owns, ?_, ?_⟩, And.left⟩
    · exact List.le_trans (List.le_of_lt (Key.least_lt_of .dentry ⟨parent, ""⟩)) owns.le
    · exact List.le_trans (List.le_of_lt owns.lt_lastChild) (Target.lastChild_le_boundary parent)
  rw [part, entries, List.filter_map]
  refine congrArg (List.map _) (List.filter_congr fun d _ => ?_)
  exact decide_eq_decide.mpr Directory.owns_of_iff

/-- What closes the scan of a directory is a record of another one. -/
theorem endsQuietly (lists : m.Lists .dentry rs) (held : m.HeldBy t)
    (entries : t.range Collection.dentry.least Collection.dentry.boundary =
      rs.map Collection.dentry.entry) (parent : UInt64) : t.EndsQuietly parent := by
  intro e first
  obtain ⟨member, closes⟩ := Table.mem_closing.mp (List.mem_of_mem_head? first)
  have above : Collection.dentry.least ≤ e.1 :=
    List.le_trans (List.le_of_lt (Key.least_lt_of .dentry ⟨parent, ""⟩)) (List.le_of_lt closes.1)
  have below : e.1 ≤ Collection.dentry.boundary :=
    List.le_trans closes.2.le (Target.lastChild_le_boundary parent)
  have listed := OrderedMap.mem_range.mpr ⟨member, above, below⟩
  rw [entries] at listed
  obtain ⟨d, live, rfl⟩ := List.mem_map.mp listed
  refine ⟨d, Collection.decode_encode (held.fits (lists.live.mpr ⟨live, rfl⟩)), fun own => ?_⟩
  exact closes.not_owns (Directory.owns_of_iff.mpr own)

/-- A listing offers the records of its directory. -/
theorem listing_eq (lists : m.Lists .dentry rs) (held : m.HeldBy t)
    (entries : t.range Collection.dentry.least Collection.dentry.boundary =
      rs.map Collection.dentry.entry) (parent : UInt64) :
    t.listing parent = ⟨rs.filter (·.parent = parent), none⟩ := by
  have delivered : List.Forall₂ (Directory.Delivers parent) (t.inDirectory parent)
      (rs.filter (·.parent = parent)) := by
    rw [inDirectory_eq entries, List.forall₂_map_left_iff, List.forall₂_same]
    intro d hd
    obtain ⟨live, own⟩ := List.mem_filter.mp hd
    exact ⟨Collection.decode_encode (held.fits (lists.live.mpr ⟨live, rfl⟩)), by simpa using own⟩
  rw [Table.listing_of_delivered delivered, (lists.endsQuietly held entries parent).offer_closing,
    List.append_nil]

end Lists

end Records

/-- **Directory listings are exact.** After any run of operations on records that leaves the store
in use, every directory has a list of its records, each once and in the order of their names, and
the listing of the directory walks this list: a visitor that never stops visits all of it and meets
no error. The lists of all directories in turn are what a scan of the whole collection visits. -/
theorem listing_of_records_exact (base : String) (writeBuffer : UInt64)
    {ops : List Catalog.Operation} (bounded : ∀ op ∈ ops, op.IsBounded)
    (inUse : (Catalog.empty.run ops).1.isClosed = false) :
    let store := ((Session.start base writeBuffer).run (ops.map Catalog.Operation.step)).1.store
    ∃ (ds : UInt64 → List Dentry) (view : Snapshot),
      (∀ parent, (Catalog.empty.run ops).1.records.ListsDirectory parent (ds parent)) ∧
      (∀ {σ ε : Type} (parent : UInt64) (visit : Scan.Visitor σ Dentry (ScanFault ε)) (state : σ),
        store.children parent visit state = Scan.walk visit state (ds parent) ∧
          (Scan.Tireless visit →
            store.children parent visit state = Scan.visited visit state (ds parent))) ∧
      store.snapshot = .ok view ∧ view.Shows .dentry (Directory.all.flatMap ds) ∧
      ∀ {σ ε : Type} {visit : Scan.Visitor σ Dentry (ScanFault ε)}, Scan.Tireless visit → ∀ state,
        store.range .dentry ⟨0, ""⟩ none visit state =
          Scan.visited visit state (Directory.all.flatMap ds) := by
  intro store
  have ran := ((Catalog.represents_start base writeBuffer).run bounded).1
  have start : Catalog.empty.records.Keyed := Records.keyed_empty
  obtain ⟨rs, lists, entries⟩ := ran.held.exists_lists (Catalog.run_keyed start ops) .dentry
  have ready : store.isClosed = false := ran.isClosed.trans inUse
  let view : Snapshot := ⟨store.directory, store.committed⟩
  have taken : store.snapshot = .ok view := Store.snapshot_of_inUse ready
  let ds (parent : UInt64) : List Dentry := rs.filter (·.parent = parent)
  have walked : ∀ {σ ε : Type} (parent : UInt64) (visit : Scan.Visitor σ Dentry (ScanFault ε))
      (state : σ), store.children parent visit state = Scan.walk visit state (ds parent) := by
    intro σ ε parent visit state
    rw [Store.children_of_inUse ready, lists.listing_eq ran.held entries, Scan.walk_eq_present]
  have whole : Directory.all.flatMap ds = rs := lists.flatMap_directories lists.listsDirectory
  have shows : view.Shows .dentry (Directory.all.flatMap ds) := by
    rw [whole]
    exact lists.shows ran.held entries
  refine ⟨ds, view, lists.listsDirectory, ?_, taken, shows, ?_⟩
  · intro σ ε parent visit state
    exact ⟨walked parent visit state, fun tireless => by rw [walked, tireless.walk_eq]⟩
  · intro σ ε visit tireless state
    rw [Store.range, taken]
    exact (shows.whole visit state).symm.trans (shows.scan tireless state)

/-- The nameless entry of directory 7 is listed with it, that of directory 8 is not. -/
theorem listing_of_records_nameless :
    let ops : List Catalog.Operation :=
      [.put .dentry ⟨7, "b", 1, 0⟩, .create .dentry ⟨8, "", 2, 0⟩, .put .dentry ⟨7, "", 3, 0⟩,
        .put .dentry ⟨7, "a", 4, 0⟩, .flush, .delete .dentry ⟨7, "a"⟩]
    (∀ op ∈ ops, op.IsBounded) ∧ (Catalog.empty.run ops).1.isClosed = false ∧
      (Catalog.empty.run ops).1.records.ListsDirectory 7 [⟨7, "", 3, 0⟩, ⟨7, "b", 1, 0⟩] := by
  intro ops
  have text : ∀ s : String, (Utf8.encode s).length ≤ 1 → Text.Fits s := fun s short =>
    Nat.lt_of_le_of_lt short (by decide)
  have bounded : ∀ op ∈ ops, op.IsBounded := by
    simp [ops, Catalog.Operation.IsBounded, Collection.Fits, Key.IsProper, text "a" (by decide),
      text "b" (by decide), text "" (by decide)]
  have inUse : (Catalog.empty.run ops).1.isClosed = false := rfl
  refine ⟨bounded, inUse, ?_⟩
  obtain ⟨ds, view, directories, listed, -⟩ := listing_of_records_exact "/data" 64 bounded inUse
  let collect : Scan.Visitor (List Dentry) Dentry (ScanFault Empty) :=
    fun seen d => (seen ++ [d], .more)
  have collected : ∀ (ds seen : List Dentry), ds.foldl (fun s d => (collect s d).1) seen =
      seen ++ ds := by
    intro ds
    induction ds with
    | nil => exact fun seen => (List.append_nil seen).symm
    | cons d rest ih => exact fun seen => (ih _).trans (by simp [collect])
  have found := (listed 7 collect []).2 (fun _ _ => rfl)
  rw [Scan.visited, collected, List.nil_append] at found
  have seen : ds 7 = [⟨7, "", 3, 0⟩, ⟨7, "b", 1, 0⟩] :=
    (congrArg Prod.fst found).symm.trans (by decide +kernel)
  exact seen ▸ directories 7

end FileCatalog
