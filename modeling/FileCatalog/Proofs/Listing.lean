import FileCatalog.Proofs.Range

/-!
# Directory listings over any contents

The listing of a directory reads the values between two keys: the one of its nameless entry, with
which the keys of all its entries begin, and the one of the nameless entry of the next directory.
Both are included. So behind the entries of the directory it can come by the second bound, and by
what is left of this bound without some zeros at its end, since such keys come behind the directory
too (`Directory.between_iff`). These are the keys that close the scan.

A listing ends at the first value that holds no entry of the directory. It decodes the value before
it asks whose record it is, so there are two ways to end: with a fault, and without one. Two facts
follow, one about what stands outside of a directory and one about what stands in it.

- `listing_apart_but_for_closing`: only what closes the scan can tell two stores apart whose entries
  in the directory are the same, and only behind the whole directory.
- `listing_whole_where_filed`: a listing without a fault is whole, if the records that it comes by
  are filed under their own directories. A record of another directory under a key of this one ends
  the listing without a fault.

Nothing is assumed of the values, or of the keys beside them. That records which were written as
records are no exception of either kind is not shown here.
-/

namespace FileCatalog

namespace Bytes

/-- What is not before a byte string begins with it, or comes behind everything that does. -/
theorem prefix_or_behind {a b : Bytes} (h : a ≤ b) : a <+: b ∨ ∀ rest, a ++ rest < b := by
  induction a generalizing b with
  | nil => exact Or.inl List.nil_prefix
  | cons x a ih =>
    cases b with
    | nil => exact absurd (List.le_nil.mp h) (List.cons_ne_nil x a)
    | cons y b =>
      rcases List.cons_le_cons_iff.mp h with first | ⟨rfl, rest⟩
      · right
        intro rest
        exact List.cons_lt_cons_iff.mpr (Or.inl first)
      · rcases ih rest with front | behind
        · exact Or.inl (List.cons_prefix_cons.mpr ⟨rfl, front⟩)
        · right
          intro rest
          exact List.cons_lt_cons_iff.mpr (Or.inr ⟨rfl, behind rest⟩)

/-- Octets are the form of a number. -/
theorem exists_bigEndian {w : Nat} {octets : Bytes} (length : octets.length = w) :
    ∃ n < capacity w, octets = bigEndian w n := by
  refine ⟨ofBigEndian octets, ?_, ?_⟩
  · have bound := ofLittleEndian_lt octets.reverse
    rwa [List.length_reverse, length] at bound
  · rw [← length, bigEndian_ofBigEndian]

end Bytes

/-! ## Keys in the reach of a listing -/

namespace Directory

/-- What the keys of a directory's entries begin with. -/
def front (parent : UInt64) : Bytes := Key.of .dentry ⟨parent, ""⟩

/-- The key is that of an entry of the directory. -/
def Owns (parent : UInt64) (key : Bytes) : Prop := front parent <+: key

/-- The key is behind those of the directory and the upper bound of its scan begins with it. -/
def Closes (parent : UInt64) (key : Bytes) : Prop :=
  front parent < key ∧ key <+: Target.lastChild parent

instance (parent : UInt64) (key : Bytes) : Decidable (Owns parent key) := by
  unfold Owns; infer_instance

instance (parent : UInt64) (key : Bytes) : Decidable (Closes parent key) := by
  unfold Closes; infer_instance

/-- Keys of a directory begin with the discriminator and the eight octets of its number. -/
theorem front_eq (parent : UInt64) : front parent = 1 :: Bytes.bigEndian 8 parent.toNat := by
  rw [front, Key.of, Key.ofIdentity]
  exact congrArg (List.cons 1) (List.append_nil _)

theorem length_front (parent : UInt64) : (front parent).length = 9 := by
  rw [front_eq, List.length_cons, Bytes.length_bigEndian]

/-- The scan of a directory goes up to the front of the next one; behind the last directory it goes
up to the byte of the next collection. -/
theorem lastChild_cases (parent : UInt64) :
    (parent.toNat + 1 < UInt64.size ∧
        Target.lastChild parent = 1 :: Bytes.bigEndian 8 (parent.toNat + 1)) ∨
      (parent.toNat + 1 = UInt64.size ∧ Target.lastChild parent = [2]) := by
  have one : (1 : UInt64).toNat = 1 := rfl
  unfold Target.lastChild Counting.addChecked
  rw [one]
  split
  · next next found =>
    split at found
    · next fits =>
      cases found
      left
      refine ⟨fits, ?_⟩
      have sum : (parent + 1).toNat = parent.toNat + 1 := by
        rw [UInt64.toNat_add, one]
        exact Nat.mod_eq_of_lt fits
      rw [← sum]
      exact front_eq (parent + 1)
    · cases found
  · next found =>
    split at found
    · cases found
    · next full =>
      have := parent.toNat_lt
      refine Or.inr ⟨?_, rfl⟩
      simp only [UInt64.size] at full ⊢
      omega

/-- The keys of a directory are below the bound of its listing. -/
theorem Owns.lt_lastChild {parent : UInt64} {key : Bytes} (owns : Owns parent key) :
    key < Target.lastChild parent := by
  obtain ⟨rest, rfl⟩ := owns
  rw [front_eq, List.cons_append]
  rcases lastChild_cases parent with ⟨small, last⟩ | ⟨-, last⟩
  · have number : parent.toNat < Bytes.capacity 8 := parent.toNat_lt
    have before : Bytes.bigEndian 8 parent.toNat < Bytes.bigEndian 8 (parent.toNat + 1) :=
      (Bytes.bigEndian_lt_iff number small).mpr (Nat.lt_succ_self _)
    rw [last, List.cons_lt_cons_iff, ← List.append_nil (Bytes.bigEndian 8 (parent.toNat + 1)),
      Bytes.append_lt_append_iff _ _ (by simp)]
    exact Or.inr ⟨rfl, Or.inl before⟩
  · rw [last, List.cons_lt_cons_iff]
    exact Or.inl (by decide)

namespace Closes

variable {parent : UInt64} {key : Bytes}

/-- What closes a listing is no key of the directory. -/
theorem not_owns (closes : Closes parent key) : ¬ Owns parent key := by
  intro owns
  have within : front parent <+: Target.lastChild parent := owns.trans closes.2
  rcases lastChild_cases parent with ⟨small, last⟩ | ⟨-, last⟩
  · rw [last] at within
    have same := within.eq_of_length <| by
      rw [length_front, List.length_cons, Bytes.length_bigEndian]
    rw [front_eq, List.cons.injEq] at same
    have number : parent.toNat < Bytes.capacity 8 := parent.toNat_lt
    exact Nat.succ_ne_self _ (Bytes.bigEndian_injective number small same.2).symm
  · have short := within.length_le
    rw [last, length_front] at short
    exact absurd short (by decide)

/-- What closes a scan comes behind all keys of the directory. -/
theorem behind (closes : Closes parent key) {own : Bytes} (owns : Owns parent own) :
    own < key := by
  obtain ⟨rest, rfl⟩ := owns
  rcases Bytes.prefix_or_behind (List.le_of_lt closes.1) with own | behind
  · exact absurd own closes.not_owns
  · exact behind rest

end Closes

/-- Before the bound of the scan there is no directory of a larger number. -/
private theorem le_of_lt_lastChild {parent : UInt64} {n : Nat} (fits : n < Bytes.capacity 8)
    {rest : Bytes} (before : 1 :: (Bytes.bigEndian 8 n ++ rest) < Target.lastChild parent) :
    n ≤ parent.toNat := by
  rcases lastChild_cases parent with ⟨small, last⟩ | ⟨full, -⟩
  · have number : parent.toNat + 1 < Bytes.capacity 8 := small
    rw [last, List.cons_lt_cons_iff, ← List.append_nil (Bytes.bigEndian 8 (parent.toNat + 1)),
      Bytes.append_lt_append_iff _ _ (by simp), Bytes.bigEndian_lt_iff fits number] at before
    rcases before with octet | ⟨-, less | ⟨-, none⟩⟩
    · exact absurd octet (by decide)
    · omega
    · exact absurd none (List.not_lt_nil _)
  · have : Bytes.capacity 8 = UInt64.size := by decide
    omega

/-- Nine octets tell a directory, and between the bounds there is but one. -/
private theorem owns_of_long {parent : UInt64} {key : Bytes} (long : 9 ≤ key.length)
    (first : front parent ≤ key) (last : key < Target.lastChild parent) : Owns parent key := by
  obtain ⟨octet, tail, rfl⟩ := List.exists_cons_of_length_pos (show 0 < key.length by omega)
  have least : 1 ≤ octet.toNat := by
    rw [front_eq, List.cons_le_cons_iff, UInt8.lt_iff_toNat_lt] at first
    rcases first with above | ⟨rfl, -⟩
    · exact Nat.le_of_lt above
    · exact Nat.le_refl 1
  have most : octet.toNat ≤ 1 := by
    rcases lastChild_cases parent with ⟨-, bound⟩ | ⟨-, bound⟩
    · rw [bound, List.cons_lt_cons_iff, UInt8.lt_iff_toNat_lt] at last
      rcases last with below | ⟨rfl, -⟩
      · exact Nat.le_of_lt below
      · exact Nat.le_refl 1
    · rw [bound, List.cons_lt_cons_iff, UInt8.lt_iff_toNat_lt] at last
      rcases last with below | ⟨-, none⟩
      · exact Nat.le_of_lt_succ below
      · exact absurd none (List.not_lt_nil _)
  obtain rfl : octet = 1 := UInt8.toNat_inj.mp (Nat.le_antisymm most least)
  have eight : (tail.take 8).length = 8 := by
    rw [List.length_take]
    rw [List.length_cons] at long
    omega
  obtain ⟨n, fits, digits⟩ := Bytes.exists_bigEndian eight
  rw [← List.take_append_drop 8 tail, digits] at first last ⊢
  have number : parent.toNat < Bytes.capacity 8 := parent.toNat_lt
  have atMost := le_of_lt_lastChild fits last
  have atLeast : ¬ n < parent.toNat := by
    intro less
    refine List.not_lt.mpr first ?_
    rw [front_eq, List.cons_lt_cons_iff, ← List.append_nil (Bytes.bigEndian 8 parent.toNat),
      Bytes.append_lt_append_iff _ _ (by simp), Bytes.bigEndian_lt_iff fits number]
    exact Or.inr ⟨rfl, Or.inl less⟩
  obtain rfl : n = parent.toNat := by omega
  rw [Owns, front_eq]
  exact ⟨tail.drop 8, rfl⟩

/-- Between the bounds of a scan lie the keys of the directory, and what closes the scan. -/
theorem between_iff (parent : UInt64) (key : Bytes) :
    front parent ≤ key ∧ key ≤ Target.lastChild parent ↔ Owns parent key ∨ Closes parent key := by
  constructor
  · rintro ⟨first, last⟩
    rcases Bytes.prefix_or_behind first with own | behind
    · exact Or.inl own
    rcases Bytes.prefix_or_behind last with part | before
    · have after := behind []
      rw [List.append_nil] at after
      exact Or.inr ⟨after, part⟩
    -- A key that is neither would stay between the bounds when it is filled up to nine octets, and
    -- would then be behind itself.
    exfalso
    let filled := key ++ List.replicate 9 0
    have long : 9 ≤ filled.length := by simp [filled]
    obtain ⟨rest, same⟩ := owns_of_long long (List.le_trans first List.le_append_left) (before _)
    have less := behind rest
    rw [same] at less
    exact List.not_lt.mpr List.le_append_left less
  · rintro (owns | closes)
    · exact ⟨owns.le, List.le_of_lt owns.lt_lastChild⟩
    · exact ⟨List.le_of_lt closes.1, closes.2.le⟩

/-- The key of the log position is in no directory. -/
theorem Owns.ne_applyIndex {parent : UInt64} {key : Bytes} (owns : Owns parent key) :
    key ≠ Key.applyIndex := by
  rintro rfl
  rw [Owns, front_eq, Key.applyIndex, List.cons_prefix_cons] at owns
  exact absurd owns.1 (by decide)

/-- A commit under a key outside of the directory leaves the keys of the directory as they are. -/
theorem get?_record_of_not_owns {parent : UInt64} {change : Change}
    (other : ¬ Owns parent change.key) (position : UInt64) (t : Table) {key : Bytes}
    (owns : Owns parent key) : t.get? key = (change.record position t).get? key := by
  have different : key ≠ change.key := fun same => other (same ▸ owns)
  rw [Change.get?_record_of_ne owns.ne_applyIndex different]

end Directory

/-! ## The entries in the reach of a listing -/

namespace Table

variable (t : Table) (parent : UInt64)

/-- The entries whose keys are those of the directory. -/
def inDirectory : List (Bytes × Bytes) := t.entries.filter fun e => Directory.Owns parent e.1

/-- The entries that close the scan of the directory. -/
def closing : List (Bytes × Bytes) := t.entries.filter fun e => Directory.Closes parent e.1

variable {t parent}

/-- The entries of a directory are those whose keys are its own. -/
theorem mem_inDirectory {e : Bytes × Bytes} :
    e ∈ t.inDirectory parent ↔ e ∈ t.entries ∧ Directory.Owns parent e.1 := by
  simp [inDirectory]

theorem mem_closing {e : Bytes × Bytes} :
    e ∈ t.closing parent ↔ e ∈ t.entries ∧ Directory.Closes parent e.1 := by
  simp [closing]

variable (t parent)

/-- A listing reads the entries of its directory, and behind them what closes the scan. -/
theorem range_eq_inDirectory_append :
    t.range (Directory.front parent) (Target.lastChild parent) =
      t.inDirectory parent ++ t.closing parent := by
  have ascending : (t.inDirectory parent ++ t.closing parent).Pairwise fun a b => a.1 < b.1 := by
    refine List.pairwise_append.mpr ⟨t.ascending.filter _, t.ascending.filter _, ?_⟩
    intro own owned last closes
    exact (mem_closing.mp closes).2.behind (mem_inDirectory.mp owned).2
  apply OrderedMap.eq_of_mem_iff (t.ascending_range _ _) ascending
  intro e
  rw [OrderedMap.mem_range, List.mem_append, mem_inDirectory, mem_closing, ← and_or_left]
  exact and_congr_right fun _ => Directory.between_iff parent e.1

/-- Tables that answer alike for the keys of a directory have the same entries in it. -/
theorem inDirectory_congr {t t' : Table} {parent : UInt64}
    (alike : ∀ key, Directory.Owns parent key → t.get? key = t'.get? key) :
    t.inDirectory parent = t'.inDirectory parent := by
  apply OrderedMap.eq_of_mem_iff (t.ascending.filter _) (t'.ascending.filter _)
  intro e
  rw [← inDirectory, ← inDirectory, mem_inDirectory, mem_inDirectory]
  refine and_congr_left fun owns => ?_
  rw [← OrderedMap.get?_eq_some_iff (m := t), ← OrderedMap.get?_eq_some_iff (m := t'),
    alike e.1 owns]

end Table

/-! ## What is offered of entries -/

namespace Directory

variable {parent : UInt64}

/-- The value of the entry holds a record of the directory. -/
def Delivers (parent : UInt64) (e : Bytes × Bytes) (d : Dentry) : Prop :=
  Collection.dentry.decode e.2 = .ok d ∧ d.parent = parent

/-- The fault of a listing that ends at the entry; there is none if the value can be read. -/
def faultAt (e : Bytes × Bytes) : Option StoreError :=
  match Collection.dentry.decode e.2 with
  | .ok _ => none
  | .error fault => some fault

/-- What is offered of entries in turn, up to the first that delivers no record of the directory. -/
def offer (parent : UInt64) (es : List (Bytes × Bytes)) : Offer Dentry :=
  (Offer.reading Collection.dentry.decode (es.map (·.2))).upTo (·.parent = parent)

variable {e : Bytes × Bytes} {es : List (Bytes × Bytes)} {ds : List Dentry}

/-- An entry that delivers a record is offered before the others. -/
theorem offer_cons_of_delivers {d : Dentry} (delivers : Delivers parent e d)
    (rest : List (Bytes × Bytes)) :
    offer parent (e :: rest) = ⟨d :: (offer parent rest).items, (offer parent rest).fault⟩ := by
  obtain ⟨read, own⟩ := delivers
  simp [offer, Offer.reading, Offer.upTo, read, own]

/-- An entry that delivers none is the end, with its fault if it cannot be read. -/
theorem offer_cons_of_stop (stops : ∀ d, ¬ Delivers parent e d) (rest : List (Bytes × Bytes)) :
    offer parent (e :: rest) = ⟨[], faultAt e⟩ := by
  unfold offer faultAt
  rw [List.map_cons, Offer.reading]
  cases read : Collection.dentry.decode e.2 with
  | error fault => simp [Offer.upTo]
  | ok d =>
    have other : ¬ d.parent = parent := fun own => stops d ⟨read, own⟩
    simp [Offer.upTo, other]

/-- Entries that deliver records are offered first, whatever follows. -/
theorem offer_append (delivered : List.Forall₂ (Delivers parent) es ds)
    (rest : List (Bytes × Bytes)) :
    offer parent (es ++ rest) = ⟨ds ++ (offer parent rest).items, (offer parent rest).fault⟩ := by
  induction delivered with
  | nil => rfl
  | cons delivers _ ih =>
    rw [List.cons_append, offer_cons_of_delivers delivers, ih]
    rfl

/-- Entries deliver records to the end, or to the first that does not. -/
theorem exists_delivered (parent : UInt64) (es : List (Bytes × Bytes)) :
    ∃ before ds after, es = before ++ after ∧ List.Forall₂ (Delivers parent) before ds ∧
      ∀ e ∈ after.head?, ∀ d, ¬ Delivers parent e d := by
  induction es with
  | nil => exact ⟨[], [], [], rfl, .nil, nofun⟩
  | cons e rest ih =>
    by_cases delivers : ∃ d, Delivers parent e d
    · obtain ⟨d, delivers⟩ := delivers
      obtain ⟨before, ds, after, rfl, delivered, stops⟩ := ih
      exact ⟨e :: before, d :: ds, after, rfl, .cons delivers delivered, stops⟩
    · rw [not_exists] at delivers
      refine ⟨[], [], e :: rest, rfl, .nil, ?_⟩
      rintro _ ⟨⟩
      exact delivers

/-- Each of the entries that delivered records delivers one. -/
theorem delivers_of_mem (delivered : List.Forall₂ (Delivers parent) es ds) (member : e ∈ es) :
    ∃ d, Delivers parent e d := by
  induction delivered with
  | nil => exact absurd member List.not_mem_nil
  | cons delivers _ ih =>
    rcases List.mem_cons.mp member with rfl | later
    · exact ⟨_, delivers⟩
    · exact ih later

end Directory

/-! ## Listings -/

namespace Table

variable (t : Table) (parent : UInt64)

/-- What the listing of a directory offers. -/
def listing : Offer Dentry :=
  Directory.offer parent (t.inDirectory parent ++ t.closing parent)

variable {t parent} {before rest : List (Bytes × Bytes)} {e : Bytes × Bytes} {ds : List Dentry}

/-- If all entries of the directory deliver records, what closes the scan follows. -/
theorem listing_of_delivered
    (delivered : List.Forall₂ (Directory.Delivers parent) (t.inDirectory parent) ds) :
    t.listing parent =
      ⟨ds ++ (Directory.offer parent (t.closing parent)).items,
        (Directory.offer parent (t.closing parent)).fault⟩ := by
  rw [listing, Directory.offer_append delivered]

/-- A listing ends at the first entry of the directory that delivers none of its records. -/
theorem listing_of_stop (entries : t.inDirectory parent = before ++ e :: rest)
    (delivered : List.Forall₂ (Directory.Delivers parent) before ds)
    (stops : ∀ d, ¬ Directory.Delivers parent e d) :
    t.listing parent = ⟨ds, Directory.faultAt e⟩ := by
  rw [listing, entries, List.append_assoc, List.cons_append, Directory.offer_append delivered,
    Directory.offer_cons_of_stop stops, List.append_nil]

/-- Two tables with the same entries in a directory have the same listing; or all of the directory
is listed in both, and each goes on as what closes its scan has it. -/
theorem listing_alike {t t' : Table} (own : t.inDirectory parent = t'.inDirectory parent) :
    t.listing parent = t'.listing parent ∨
      ∃ ds, List.Forall₂ (Directory.Delivers parent) (t.inDirectory parent) ds ∧
        ∀ u ∈ [t, t'], u.listing parent =
          ⟨ds ++ (Directory.offer parent (u.closing parent)).items,
            (Directory.offer parent (u.closing parent)).fault⟩ := by
  obtain ⟨before, ds, after, entries, delivered, stops⟩ :=
    Directory.exists_delivered parent (t.inDirectory parent)
  cases after with
  | nil =>
    rw [List.append_nil] at entries
    rw [← entries] at delivered
    have delivered' := own ▸ delivered
    refine Or.inr ⟨ds, delivered, ?_⟩
    simp only [List.forall_mem_cons]
    exact ⟨listing_of_delivered delivered, listing_of_delivered delivered', nofun⟩
  | cons e rest =>
    have stop := stops e rfl
    have entries' := own ▸ entries
    left
    rw [listing_of_stop entries delivered stop, listing_of_stop entries' delivered stop]

end Table

/-- The listing of a directory is presented, and nothing else. -/
theorem Snapshot.children_eq {σ ε : Type} (view : Snapshot) (parent : UInt64)
    (visit : Scan.Visitor σ Dentry (ScanFault ε)) (state : σ) :
    view.children parent visit state =
      Scan.present visit (view.table.listing parent).fault state
        (view.table.listing parent).items := by
  rw [Table.listing, ← Table.range_eq_inDirectory_append]
  simp only [children, rangeBytes, Scan.walk_decoding]
  rw [Scan.present_upTo (fun d : Dentry => d.parent = parent) visit]
  rfl

/-- A listing of the store is a scan of what its committed table lists. -/
theorem Store.children_of_inUse {σ ε : Type} {s : Store} (inUse : s.isClosed = false)
    (parent : UInt64) (visit : Scan.Visitor σ Dentry (ScanFault ε)) (state : σ) :
    s.children parent visit state =
      Scan.present visit (s.committed.listing parent).fault state
        (s.committed.listing parent).items := by
  rw [children, snapshot_of_inUse inUse]
  exact Snapshot.children_eq _ parent visit state

/-! ## What stands outside of a directory -/

/-- The listing ends where the directory does: nothing closes the scan, or a record of another
directory does. -/
def Table.EndsQuietly (t : Table) (parent : UInt64) : Prop :=
  ∀ e ∈ (t.closing parent).head?, ∃ d,
    Collection.dentry.decode e.2 = .ok d ∧ d.parent ≠ parent

/-- Where a directory ends quietly, what closes its listing offers nothing and is no fault. -/
theorem Table.EndsQuietly.offer_closing {t : Table} {parent : UInt64}
    (quiet : t.EndsQuietly parent) :
    Directory.offer parent (t.closing parent) = ⟨[], none⟩ := by
  unfold EndsQuietly at quiet
  cases closing : t.closing parent with
  | nil => rfl
  | cons e rest =>
    rw [closing] at quiet
    obtain ⟨d, read, other⟩ := quiet e rfl
    have stops : ∀ d', ¬ Directory.Delivers parent e d' := by
      rintro d' ⟨read', own⟩
      rw [read, Except.ok.injEq] at read'
      exact other (read' ▸ own)
    rw [Directory.offer_cons_of_stop stops, Directory.faultAt, read]

/-- **A listing is of its directory, but for what closes the scan.** Let two stores in use hold the
same under all keys of a directory, and anything else under other keys. If what closes the scan is
the same in both, or lets the listing end where the directory does, every visitor has the same
visits and the same result in both. In any case the two listings are the same, or both begin with
all records of the directory. -/
theorem listing_apart_but_for_closing {s s' : Store} (inUse : s.isClosed = false)
    (inUse' : s'.isClosed = false) {parent : UInt64}
    (alike : ∀ key, Directory.Owns parent key → s.committed.get? key = s'.committed.get? key) :
    let t := s.committed
    let t' := s'.committed
    (t.closing parent = t'.closing parent ∨ t.EndsQuietly parent ∧ t'.EndsQuietly parent →
      ∀ {σ ε : Type} (visit : Scan.Visitor σ Dentry (ScanFault ε)) (state : σ),
        s.children parent visit state = s'.children parent visit state) ∧
      (t.listing parent = t'.listing parent ∨
        ∃ ds, List.Forall₂ (Directory.Delivers parent) (t.inDirectory parent) ds ∧
          ds <+: (t.listing parent).items ∧ ds <+: (t'.listing parent).items) ∧
      ∀ {σ ε : Type} (visit : Scan.Visitor σ Dentry (ScanFault ε)) (state : σ),
        s.children parent visit state =
            Scan.present visit (t.listing parent).fault state (t.listing parent).items ∧
          s'.children parent visit state =
            Scan.present visit (t'.listing parent).fault state (t'.listing parent).items := by
  intro t t'
  have scans : ∀ {σ ε : Type} (visit : Scan.Visitor σ Dentry (ScanFault ε)) (state : σ),
      s.children parent visit state =
          Scan.present visit (t.listing parent).fault state (t.listing parent).items ∧
        s'.children parent visit state =
          Scan.present visit (t'.listing parent).fault state (t'.listing parent).items :=
    fun visit state =>
      ⟨Store.children_of_inUse inUse parent visit state,
        Store.children_of_inUse inUse' parent visit state⟩
  have own : t.inDirectory parent = t'.inDirectory parent := Table.inDirectory_congr alike
  refine ⟨?_, ?_, scans⟩
  · intro closing σ ε visit state
    have offers : Directory.offer parent (t.closing parent) =
        Directory.offer parent (t'.closing parent) := by
      rcases closing with same | ⟨quiet, quiet'⟩
      · rw [same]
      · rw [quiet.offer_closing, quiet'.offer_closing]
    have listings : t.listing parent = t'.listing parent := by
      rcases Table.listing_alike own with same | ⟨ds, -, whole⟩
      · exact same
      · rw [whole t (by simp), whole t' (by simp), offers]
    rw [(scans visit state).1, (scans visit state).2, listings]
  · rcases Table.listing_alike own with same | ⟨ds, delivered, whole⟩
    · exact Or.inl same
    · refine Or.inr ⟨ds, delivered, ?_, ?_⟩
      · rw [whole t (by simp)]
        exact List.prefix_append ds _
      · rw [whole t' (by simp)]
        exact List.prefix_append ds _

/-- The nameless entry of the next directory is read with the listing, and does not show. -/
theorem listing_apart_from_nameless_entry :
    let steps : List Step := [.put .dentry ⟨5, "a", 8, 0⟩]
    let s := ((Session.start "/data" 100).run steps).1.store
    let s' := ((Session.start "/data" 100).run (steps ++ [.put .dentry ⟨6, "", 9, 0⟩])).1.store
    let collect : Scan.Visitor (List Dentry) Dentry (ScanFault Empty) :=
      fun seen d => (seen ++ [d], .more)
    (∀ key, Directory.Owns 5 key → s.committed.get? key = s'.committed.get? key) ∧
      (s.committed.closing 5).length = 0 ∧ (s'.committed.closing 5).length = 1 ∧
      s.children 5 collect [] = s'.children 5 collect [] := by
  intro steps s s' collect
  let next : Bytes × Bytes := (Key.of .dentry ⟨6, ""⟩, Collection.dentry.encode ⟨6, "", 9, 0⟩)
  have alike : ∀ key, Directory.Owns 5 key → s.committed.get? key = s'.committed.get? key := by
    intro key owns
    have written : s'.committed = Change.record ⟨next.1, some next.2⟩ 0 s.committed := rfl
    have other : ¬ Directory.Owns 5 next.1 := by decide
    rw [written]
    exact Directory.get?_record_of_not_owns other 0 s.committed owns
  have none : s.committed.closing 5 = [] := by decide +kernel
  have one : s'.committed.closing 5 = [next] := by decide +kernel
  have quiet : s.committed.EndsQuietly 5 := by
    rw [Table.EndsQuietly, none]
    exact nofun
  have quiet' : s'.committed.EndsQuietly 5 := by
    rw [Table.EndsQuietly, one]
    rintro _ ⟨⟩
    exact ⟨⟨6, "", 9, 0⟩, by decide +kernel, by decide⟩
  refine ⟨alike, by rw [none]; rfl, by rw [one]; rfl, ?_⟩
  exact (listing_apart_but_for_closing rfl rfl alike).1 (Or.inr ⟨quiet, quiet'⟩) collect []

/-- An octet that is no record, under the key of the nameless entry of the next directory, is a
fault of the listing. -/
theorem listing_disturbed_by_closing :
    ¬ ∀ (s s' : Store), s.isClosed = false → s'.isClosed = false → ∀ parent,
      (∀ key, Directory.Owns parent key → s.committed.get? key = s'.committed.get? key) →
        ∀ (visit : Scan.Visitor Nat Dentry (ScanFault Empty)) (state : Nat),
          s.children parent visit state = s'.children parent visit state := by
  intro apart
  let s := (Session.start "/data" 100).store
  let s' := ((Session.start "/data" 100).run [.putBytes (Directory.front 6) [0xFF]]).1.store
  have alike : ∀ key, Directory.Owns 5 key → s.committed.get? key = s'.committed.get? key := by
    intro key owns
    have written : s'.committed = Change.record ⟨Directory.front 6, some [0xFF]⟩ 0 s.committed :=
      rfl
    have other : ¬ Directory.Owns 5 (Directory.front 6) := by decide
    rw [written]
    exact Directory.get?_record_of_not_owns other 0 s.committed owns
  have same := apart s s' rfl rfl 5 alike (fun n _ => (n + 1, .more)) 0
  revert same
  decide +kernel

/-! ## What stands in a directory -/

/-- If the value of the entry holds a record, it is one of the directory exactly if its key is. -/
def Directory.IsFiled (parent : UInt64) (e : Bytes × Bytes) : Prop :=
  ∀ d, Collection.dentry.decode e.2 = .ok d → (d.parent = parent ↔ Directory.Owns parent e.1)

instance (parent : UInt64) : DecidablePred (Directory.IsFiled parent) := fun e =>
  match read : Collection.dentry.decode e.2 with
  | .ok d => decidable_of_iff (d.parent = parent ↔ Directory.Owns parent e.1)
      (by simp [Directory.IsFiled, read])
  | .error _ => .isTrue (by simp [Directory.IsFiled, read])

/-- Of the records that a listing comes by, those of the directory stand under its keys, and no
others do. -/
def Table.IsFiled (t : Table) (parent : UInt64) : Prop :=
  ∀ e ∈ t.inDirectory parent ++ (t.closing parent).take 1, Directory.IsFiled parent e

instance (t : Table) (parent : UInt64) : Decidable (t.IsFiled parent) := by
  unfold Table.IsFiled; infer_instance

namespace Table.IsFiled

variable {t : Table} {parent : UInt64}

/-- Nothing is offered of what closes the scan. -/
theorem items_closing (filed : t.IsFiled parent) :
    (Directory.offer parent (t.closing parent)).items = [] := by
  unfold IsFiled at filed
  cases closing : t.closing parent with
  | nil => rfl
  | cons e rest =>
    rw [closing] at filed
    have listed : e ∈ t.closing parent := closing ▸ List.mem_cons_self
    have stops : ∀ d, ¬ Directory.Delivers parent e d := by
      rintro d ⟨read, own⟩
      have owns := (filed e (List.mem_append_right _ List.mem_cons_self) d read).mp own
      exact (mem_closing.mp listed).2.not_owns owns
    rw [Directory.offer_cons_of_stop stops]

/-- An entry of the directory that delivers no record of it cannot be read. -/
theorem unreadable (filed : t.IsFiled parent) {e : Bytes × Bytes} (own : e ∈ t.inDirectory parent)
    (stops : ∀ d, ¬ Directory.Delivers parent e d) :
    ∃ fault, Collection.dentry.decode e.2 = .error fault ∧ Directory.faultAt e = some fault := by
  unfold Directory.faultAt
  cases read : Collection.dentry.decode e.2 with
  | error fault => exact ⟨fault, rfl, rfl⟩
  | ok d =>
    have home := (filed e (List.mem_append_left _ own) d read).mpr (mem_inDirectory.mp own).2
    exact absurd ⟨read, home⟩ (stops d)

end Table.IsFiled

/-- **A listing is whole where records are filed.** In any store in use let `l` be what the listing
of a directory offers. A visitor that never stops is offered all of it and meets its fault, if it
has one. If the records that the listing comes by are filed, then a listing without a fault has a
record for each key of the directory, the one that stands there; and if a value under such a key
cannot be read, the listing has a fault of this kind. In any case it ends at the first entry of the
directory that delivers none of its records: with a fault if the entry cannot be read, without one
if it is the record of another directory. -/
theorem listing_whole_where_filed {s : Store} (inUse : s.isClosed = false) (parent : UInt64) :
    let t := s.committed
    let own := t.inDirectory parent
    let l := t.listing parent
    (∀ {σ ε : Type} {visit : Scan.Visitor σ Dentry (ScanFault ε)}, Scan.Tireless visit → ∀ state,
        s.children parent visit state =
          (l.items.foldl (fun s d => (visit s d).1) state, l.fault.map .store)) ∧
      (t.IsFiled parent →
        (l.fault = none →
          l.items.length = own.length ∧ List.Forall₂ (Directory.Delivers parent) own l.items) ∧
        ∀ e ∈ own, ∀ fault, Collection.dentry.decode e.2 = .error fault →
          ∃ e' ∈ own, ∃ fault', Collection.dentry.decode e'.2 = .error fault' ∧
            l.fault = some fault') ∧
      ∀ before ds e after, own = before ++ e :: after →
        List.Forall₂ (Directory.Delivers parent) before ds →
        (∀ d, ¬ Directory.Delivers parent e d) → l = ⟨ds, Directory.faultAt e⟩ := by
  intro t own l
  refine ⟨?_, ?_, ?_⟩
  · intro σ ε visit tireless state
    rw [Store.children_of_inUse inUse, tireless.present_eq]
  · intro filed
    obtain ⟨before, ds, after, entries, delivered, stops⟩ := Directory.exists_delivered parent own
    cases after with
    | nil =>
      -- Every entry delivers a record, so none of them is unreadable.
      rw [List.append_nil] at entries
      rw [← entries] at delivered
      have items : l.items = ds := by
        rw [show l = _ from Table.listing_of_delivered delivered, filed.items_closing,
          List.append_nil]
      refine ⟨fun _ => ?_, ?_⟩
      · rw [items]
        exact ⟨delivered.length_eq.symm, delivered⟩
      · intro e member fault damaged
        obtain ⟨d, read, -⟩ := Directory.delivers_of_mem delivered member
        rw [damaged] at read
        cases read
    | cons e rest =>
      have stop := stops e rfl
      have member : e ∈ own := entries ▸ List.mem_append_right _ List.mem_cons_self
      obtain ⟨fault, damaged, told⟩ := filed.unreadable member stop
      have ended : l.fault = some fault := by
        rw [show l = _ from Table.listing_of_stop entries delivered stop, ← told]
      refine ⟨fun none => ?_, fun _ _ _ _ => ⟨e, member, fault, damaged, ended⟩⟩
      rw [ended] at none
      cases none
  · intro before ds e after entries delivered stops
    exact Table.listing_of_stop entries delivered stops

/-- All records are filed, but one of three entries is damaged: behind it the directory is not
listed, and the fault is told. -/
theorem listing_whole_but_for_damage :
    let s := ((Session.start "/data" 100).run
      [.put .dentry ⟨5, "a", 8, 0⟩, .putBytes (Key.of .dentry ⟨5, "b"⟩) [0xFF],
        .put .dentry ⟨5, "c", 9, 0⟩]).1.store
    let collect : Scan.Visitor (List Dentry) Dentry (ScanFault Empty) :=
      fun seen d => (seen ++ [d], .more)
    s.isClosed = false ∧ s.committed.IsFiled 5 ∧ (s.committed.inDirectory 5).length = 3 ∧
      (s.committed.listing 5).fault ≠ none ∧
      s.children 5 collect [] =
        ([⟨5, "a", 8, 0⟩], some (.store (.decode .dentry .endOfInput))) := by
  intro s collect
  have inUse : s.isClosed = false := rfl
  let a : Bytes × Bytes := (Key.of .dentry ⟨5, "a"⟩, Collection.dentry.encode ⟨5, "a", 8, 0⟩)
  let b : Bytes × Bytes := (Key.of .dentry ⟨5, "b"⟩, [0xFF])
  let c : Bytes × Bytes := (Key.of .dentry ⟨5, "c"⟩, Collection.dentry.encode ⟨5, "c", 9, 0⟩)
  have entries : s.committed.inDirectory 5 = [a] ++ b :: [c] := by decide +kernel
  have read : Collection.dentry.decode a.2 = .ok ⟨5, "a", 8, 0⟩ := by decide +kernel
  have damaged : Collection.dentry.decode b.2 = .error (.decode .dentry .endOfInput) := by
    decide +kernel
  have filed : s.committed.IsFiled 5 := by decide +kernel
  have stops : ∀ d, ¬ Directory.Delivers 5 b d := by
    rintro d ⟨found, -⟩
    rw [damaged] at found
    cases found
  obtain ⟨tireless, whole, stop⟩ := listing_whole_where_filed inUse 5
  have listed := stop [a] [⟨5, "a", 8, 0⟩] b [c] entries (.cons ⟨read, rfl⟩ .nil) stops
  have member : b ∈ s.committed.inDirectory 5 := by
    rw [entries]
    exact List.mem_append_right _ List.mem_cons_self
  obtain ⟨-, -, fault, -, told⟩ := (whole filed).2 b member _ damaged
  refine ⟨inUse, filed, by rw [entries]; rfl, ?_, ?_⟩
  · rw [told]
    exact Option.some_ne_none fault
  · rw [tireless (fun _ _ => rfl), listed, Directory.faultAt, damaged]
    rfl

/-- Under a key of directory 5 stands a record of directory 6, and nothing of directory 5 is listed
behind it. -/
theorem listing_cut_by_misfiled :
    ¬ ∀ s : Store, s.isClosed = false → ∀ parent,
      let count : Scan.Visitor Nat Dentry (ScanFault Empty) := fun n _ => (n + 1, .more)
      (s.children parent count 0).2 = none →
        (s.children parent count 0).1 = (s.committed.inDirectory parent).length := by
  intro whole
  let s := ((Session.start "/data" 100).run
    [.putBytes (Key.of .dentry ⟨5, "a"⟩) (Collection.dentry.encode ⟨6, "a", 1, 0⟩),
      .put .dentry ⟨5, "b", 2, 0⟩]).1.store
  have two := whole s rfl 5 (by decide +kernel)
  revert two
  decide +kernel

end FileCatalog
