import FileCatalog.Proofs.Partition
import FileCatalog.Proofs.Thinning
import Mathlib.Data.List.TakeWhile

/-!
# Empty values

Operations that ask for keys one by one take an empty value for none (`Session.Thins.run`). Scans
do not. A count includes the empty values of a collection (`Table.Thins.scanned`), a scan of octets
visits them, and a scan that reads records breaks off at the first of them with the fault of a
record that cannot be read, unless it ends before (`Table.MeetsEmpty`). So it offers what the scan
without them offers, or breaks off in it (`Offer.BreaksOff`). `empty_values_absent_but_for_scans`
puts the two sides together, for all ways of taking empty values out of the tables of a store.
-/

namespace FileCatalog

/-! ## Scans -/

/-- The entries that a collection scans and whose keys are missing from the second table. -/
def Table.missing (t t' : Table) (c : Collection) : List (Bytes × Bytes) :=
  (t.range c.least c.boundary).filter fun e => !(t'.get? e.1).isSome

namespace Table.Thins

variable {t t' : Table}

/-- A value that is missing from the second table is empty. -/
theorem value_eq_nil (h : t.Thins t') {e : Bytes × Bytes} (entry : e ∈ t.entries)
    (missing : ¬ (t'.get? e.1).isSome) : e.2 = [] := by
  have found := OrderedMap.get?_eq_some_iff.mpr entry
  rcases h e.1 with same | ⟨-, empty, -⟩
  · rw [same, found] at missing
    exact absurd rfl missing
  · rw [found] at empty
    exact Option.some.inj empty

/-- In any range the second table has the entries of the first whose keys it has. -/
theorem range_eq (h : t.Thins t') (first last : Bytes) :
    t'.range first last = (t.range first last).filter fun e => (t'.get? e.1).isSome := by
  apply OrderedMap.eq_of_mem_iff (t'.ascending_range first last)
    ((t.ascending_range first last).filter _)
  intro e
  rw [List.mem_filter, OrderedMap.mem_range, OrderedMap.mem_range]
  have entry : e ∈ t'.entries ↔ e ∈ t.entries ∧ (t'.get? e.1).isSome = true := by
    rw [← OrderedMap.get?_eq_some_iff (m := t'), ← OrderedMap.get?_eq_some_iff (m := t)]
    rcases h e.1 with same | ⟨-, before, after⟩
    · rw [same]
      constructor
      · intro found
        exact ⟨found, by rw [found]; rfl⟩
      · exact fun both => both.1
    · rw [before, after]
      simp
  rw [entry, and_right_comm]

/-- A count includes the empty values. -/
theorem scanned (h : t.Thins t') (c : Collection) :
    t.scanned c = t'.scanned c + (t.missing t' c).length := by
  rw [← Table.length_range_eq, ← Table.length_range_eq, h.range_eq, Table.missing]
  exact List.length_eq_length_filter_add _

end Table.Thins

namespace Offer

variable {α β : Type}

/-- The first offer is the second, or breaks off in it with a fault. -/
def BreaksOff (e : StoreError) (o o' : Offer α) : Prop :=
  o = o' ∨ o.items <+: o'.items ∧ o.fault = some e

theorem BreaksOff.map {e : StoreError} {o o' : Offer α} (h : BreaksOff e o o') (f : α → β) :
    BreaksOff e (o.map f) (o'.map f) := by
  rcases h with same | ⟨items, fault⟩
  · exact Or.inl (congrArg (Offer.map f) same)
  · exact Or.inr ⟨items.map f, fault⟩

/-- An offer that is cut where a property ends breaks off before the cut, or the cut hides it. -/
theorem BreaksOff.upTo {e : StoreError} {o o' : Offer α} (h : BreaksOff e o o') (p : α → Prop)
    [DecidablePred p] : BreaksOff e (o.upTo p) (o'.upTo p) := by
  obtain ⟨items, fault⟩ := o
  obtain ⟨items', fault'⟩ := o'
  rcases h with same | ⟨⟨behind, longer⟩, broken⟩
  · exact Or.inl (congrArg (Offer.upTo p) same)
  · simp only at longer broken
    subst longer
    by_cases all : ∀ a ∈ items, p a
    · right
      have holds : ∀ a ∈ items, decide (p a) = true := fun a ha => decide_eq_true (all a ha)
      simp only [Offer.upTo, if_pos all, List.takeWhile_append_of_pos holds,
        List.takeWhile_eq_self_iff.mpr holds]
      exact ⟨List.prefix_append items _, broken⟩
    · left
      have notAll : ¬ ∀ a ∈ items ++ behind, p a := fun h =>
        all fun a ha => h a (List.mem_append_left behind ha)
      have shorter : (items.takeWhile (p ·)).length ≠ items.length := by
        intro same
        have whole := (List.takeWhile_prefix (p ·)).eq_of_length same
        exact all fun a ha => of_decide_eq_true (List.takeWhile_eq_self_iff.mp whole a ha)
      simp only [Offer.upTo, if_neg all, if_neg notAll, List.takeWhile_append, if_neg shorter]

/-- What can be read of the values of entries, when some that cannot be read are left out: all of
it, or what stands before the first of them. -/
theorem reading_filter {read : Bytes → Except StoreError β} {e : StoreError}
    (unreadable : read [] = .error e) (p : Bytes × Bytes → Bool) {es : List (Bytes × Bytes)}
    (empty : ∀ entry ∈ es, ¬ p entry = true → entry.2 = []) :
    BreaksOff e (reading read (es.map (·.2))) (reading read ((es.filter p).map (·.2))) := by
  induction es with
  | nil => exact Or.inl rfl
  | cons entry rest ih =>
    by_cases kept : p entry = true
    · rw [List.filter_cons_of_pos kept, List.map_cons, List.map_cons, reading, reading]
      cases read entry.2 with
      | error e => exact Or.inl rfl
      | ok b =>
        rcases ih fun other member => empty other (List.mem_cons_of_mem _ member) with
          same | ⟨items, fault⟩
        · left
          simp only [same]
        · exact Or.inr ⟨(List.prefix_cons_inj b).mpr items, fault⟩
    · right
      have value := empty entry List.mem_cons_self kept
      rw [List.map_cons, value, reading, unreadable]
      exact ⟨List.nil_prefix, rfl⟩

/-- The offer with a fault behind it, if it has none of its own. -/
def endedBy (e : StoreError) (o : Offer α) : Offer α := ⟨o.items, some (o.fault.getD e)⟩

/-- What stands behind something that cannot be read is not come to. -/
theorem reading_append_unreadable {read : Bytes → Except StoreError β} {e : StoreError}
    {value : Bytes} (unreadable : read value = .error e) (front rest : List Bytes) :
    reading read (front ++ value :: rest) = (reading read front).endedBy e := by
  induction front with
  | nil =>
    rw [List.nil_append, reading, reading, unreadable]
    rfl
  | cons first front ih =>
    rw [List.cons_append, reading, reading]
    cases read first with
    | error own => rfl
    | ok b =>
      simp only [ih]
      rfl

/-- What cannot be read ends the reading, if nothing before it does. -/
theorem reading_fault {read : Bytes → Except StoreError β} {e : StoreError} {value : Bytes}
    (unreadable : read value = .error e) {values : List Bytes} (member : value ∈ values) :
    (reading read values).fault ≠ none := by
  obtain ⟨front, rest, rfl⟩ := List.append_of_mem member
  rw [reading_append_unreadable unreadable]
  exact Option.some_ne_none _

end Offer

/-- No record of any collection is held in no octets at all. -/
theorem Collection.decode_nil (c : Collection) : c.decode [] = .error (.decode c .endOfInput) := by
  cases c <;> rfl

namespace Target

/-- The collection whose records a target stands for; none if it stands for octets. -/
def collection? : Target → Option Collection
  | bytes .. | values _ => none
  | records c | between c .. => some c
  | children _ => some .dentry

/-- The keys from which and up to which a target is scanned. -/
def bounds : Target → Bytes × Bytes
  | bytes first last => (first, last)
  | values c | records c => (c.least, c.boundary)
  | between c first last => (Key.of c first, lastKey c last)
  | children parent => (Key.of .dentry ⟨parent, ""⟩, lastChild parent)

/-- What a target makes of the records of its collection that are read in turn: all of them, or
those at the head that are in its directory. -/
def shown : Target → (c : Collection) → Offer c.Record → Offer Item
  | children parent, .dentry, o => (o.upTo (·.parent = parent)).map (.record .dentry)
  | _, c, o => o.map (.record c)

variable {t t' : Table}

/-- A target of octets offers the values between its bounds, empty ones among them. -/
theorem offer_eq_values {target : Target} (raw : target.collection? = none) :
    target.offer t =
      ⟨(t.range target.bounds.1 target.bounds.2).map fun e => .value e.2, none⟩ := by
  cases target with
  | records | between | children => cases raw
  | bytes | values =>
    rw [offer, Offer.map, Table.valuesIn, List.map_map]
    rfl

/-- A target of records offers what can be read of the values between its bounds. -/
theorem offer_eq_shown {target : Target} {c : Collection} (typed : target.collection? = some c) :
    target.offer t = target.shown c
      (Offer.reading c.decode (t.valuesIn target.bounds.1 target.bounds.2)) := by
  cases target with
  | bytes | values => cases typed
  | records | between | children =>
    cases typed
    rfl

private theorem readings_breakOff (h : t.Thins t') (c : Collection) (first last : Bytes) :
    Offer.BreaksOff (.decode c .endOfInput) (Offer.reading c.decode (t.valuesIn first last))
      (Offer.reading c.decode (t'.valuesIn first last)) := by
  unfold Table.valuesIn
  rw [h.range_eq]
  apply Offer.reading_filter c.decode_nil
  intro e member missing
  exact h.value_eq_nil (OrderedMap.mem_range.mp member).1 missing

/-- A scan of records breaks off at an empty value, if the other table lacks it. -/
theorem offer_breaksOff (h : t.Thins t') {target : Target} {c : Collection}
    (typed : target.collection? = some c) :
    Offer.BreaksOff (.decode c .endOfInput) (target.offer t) (target.offer t') := by
  cases target with
  | bytes | values => cases typed
  | records c =>
    cases typed
    exact (readings_breakOff h c c.least c.boundary).map _
  | between c first last =>
    cases typed
    exact (readings_breakOff h c (Key.of c first) (lastKey c last)).map _
  | children parent =>
    cases typed
    exact ((readings_breakOff h .dentry _ _).upTo _).map _

/-- An offer depends on the range between its bounds and on nothing else. -/
theorem offer_eq_of_range {target : Target}
    (same : t'.range target.bounds.1 target.bounds.2 = t.range target.bounds.1 target.bounds.2) :
    target.offer t' = target.offer t := by
  have values : t'.valuesIn target.bounds.1 target.bounds.2 =
      t.valuesIn target.bounds.1 target.bounds.2 := by
    rw [Table.valuesIn, Table.valuesIn, same]
  cases target with
  | bytes | values | records | between | children =>
    simp only [bounds] at values
    simp only [offer, values]

/-- A scan that comes by no empty value offers the same. -/
theorem offer_eq_of_thins (h : t.Thins t') {target : Target}
    (whole : ∀ e ∈ t.range target.bounds.1 target.bounds.2, e.2 ≠ []) :
    target.offer t' = target.offer t := by
  apply offer_eq_of_range
  rw [h.range_eq]
  apply List.filter_eq_self.mpr
  intro e member
  by_contra missing
  exact whole e member (h.value_eq_nil (OrderedMap.mem_range.mp member).1 missing)

end Target

/-- What the scans of a table meet of its empty values. Those of octets visit them. Those of records
show what is read of the values before an empty one and, unless this has a fault of its own, end
there with the fault of a record that cannot be read from nothing. -/
structure Table.MeetsEmpty (t : Table) : Prop where
  octets : ∀ target : Target, target.collection? = none → target.offer t =
    ⟨(t.range target.bounds.1 target.bounds.2).map fun e => .value e.2, none⟩
  records : ∀ (target : Target) (c : Collection), target.collection? = some c → target.offer t =
    target.shown c (Offer.reading c.decode (t.valuesIn target.bounds.1 target.bounds.2))
  empty : ∀ (target : Target) (c : Collection), target.collection? = some c → ∀ front rest,
    t.valuesIn target.bounds.1 target.bounds.2 = front ++ [] :: rest → target.offer t =
      target.shown c ((Offer.reading c.decode front).endedBy (.decode c .endOfInput))

theorem Table.meetsEmpty (t : Table) : t.MeetsEmpty where
  octets _ raw := Target.offer_eq_values raw
  records _ _ typed := Target.offer_eq_shown typed
  empty target c typed front rest values := by
    rw [Target.offer_eq_shown typed, values, Offer.reading_append_unreadable c.decode_nil]

/-- **Empty values are absent, but for scans.** Take out of the tables of any store the empty values
under any set of keys, that of the log position apart. Every run of operations that ask for keys one
by one answers as before. A count was larger by the number of the values that are gone. A scan of
records was the same if it came by no empty value; otherwise it showed what is read of the values
before the first of these, and broke off there, since no record can be read from nothing: over a
whole collection, or between two identities, it never ended without a fault. Scans of the two stores
visit what their tables have for a target, and nothing else. -/
theorem empty_values_absent_but_for_scans (s : Session) {chosen : Bytes → Bool}
    (data : chosen Key.applyIndex = false) :
    let s' := s.prune chosen
    let t := s.store.committed
    let t' := s'.store.committed
    (∀ steps, (∀ st ∈ steps, st.isPointwise = true) → (s'.run steps).2 = (s.run steps).2) ∧
      (s.store.isClosed = false → ∀ c, ∃ n, (s'.step (.count c)).2 = .number n ∧
        (s.step (.count c)).2 = .number (n + (t.missing t' c).length)) ∧
      (∀ (target : Target) (c : Collection), target.collection? = some c →
        Offer.BreaksOff (.decode c .endOfInput) (target.offer t) (target.offer t') ∧
          ((∀ e ∈ t.range target.bounds.1 target.bounds.2, e.2 ≠ []) →
            target.offer t' = target.offer t)) ∧
      (∀ c, [] ∈ t.valuesIn c.least c.boundary → ((Target.records c).offer t).fault ≠ none) ∧
      (∀ c first last, [] ∈ t.valuesIn (Key.of c first) (Target.lastKey c last) →
        ((Target.between c first last).offer t).fault ≠ none) ∧
      (∀ first last, t'.range first last =
        (t.range first last).filter fun e => ¬ (chosen e.1 = true ∧ e.2 = [])) ∧
      t.MeetsEmpty ∧ t'.MeetsEmpty ∧ s.ScansCommitted ∧ s'.ScansCommitted := by
  intro s' t t'
  have sessions : s.Thins s' := s.thins_prune data
  have tables : t.Thins t' := sessions.store.committed
  refine ⟨fun steps pointwise => (sessions.run pointwise).1, ?counts, ?offers, ?whole, ?between,
    t.range_prune chosen, t.meetsEmpty, t'.meetsEmpty, s.scansCommitted, s'.scansCommitted⟩
  case counts =>
    intro inUse c
    have inUse' : s'.store.isClosed = false := inUse
    refine ⟨t'.scanned c, ?_, ?_⟩
    · rw [s'.step_count, inUse']
      rfl
    · rw [s.step_count, inUse, ← tables.scanned c]
      rfl
  case offers =>
    intro target c typed
    exact ⟨Target.offer_breaksOff tables typed, Target.offer_eq_of_thins tables⟩
  case whole =>
    intro c empty
    exact Offer.reading_fault c.decode_nil empty
  case between =>
    intro c first last empty
    exact Offer.reading_fault c.decode_nil empty

/-- Under an empty value a record can be created, and then it is found. Before that, a scan of the
records shows the one before the empty value and breaks off. -/
theorem empty_values_absent_to_creation :
    let key := Key.of .inode 2
    let s := ((Session.start "/data" 100).run
      [.put .inode { number := 1 }, .putBytes key [], .put .inode { number := 3 }]).1
    let chosen : Bytes → Bool := (· == key)
    let steps : List Step := [.contains .inode 2, .create .inode { number := 2 }, .get .inode 2]
    chosen Key.applyIndex = false ∧ (∀ st ∈ steps, st.isPointwise = true) ∧
      ((s.prune chosen).run steps).2 = (s.run steps).2 ∧
      (s.step (.scan none (.records .inode) {} [])).2.outer =
        .scanned [.record .inode { number := 1 }] (some (.store (.decode .inode .endOfInput)))
          none := by
  intro key s chosen steps
  have data : chosen Key.applyIndex = false := by decide
  have pointwise : ∀ st ∈ steps, st.isPointwise = true := by simp [steps, Step.isPointwise]
  obtain ⟨same, -, -, -, -, -, meets, -, scans, -⟩ := empty_values_absent_but_for_scans s data
  refine ⟨data, pointwise, same steps pointwise, ?_⟩
  have values : s.store.committed.valuesIn Collection.inode.least Collection.inode.boundary =
      [Collection.inode.encode { number := 1 }] ++ [] ::
        [Collection.inode.encode { number := 3 }] := by
    decide +kernel
  have fits : Collection.inode.Fits { number := 1 } := ⟨by decide, by decide⟩
  have readable : Offer.reading Collection.inode.decode
      [Collection.inode.encode { number := 1 }] = ⟨[{ number := 1 }], none⟩ := by
    rw [Offer.reading, Collection.decode_encode fits]
    rfl
  rw [scans.answered rfl, meets.empty (.records .inode) .inode rfl _ _ values, readable]
  rfl

/-- An empty value under the key of an inode is counted as one. -/
theorem empty_value_counted :
    ¬ ∀ steps, Step.AreOperations steps → ∀ chosen, chosen Key.applyIndex = false →
      ∀ (c : Collection) (n : Nat),
        let s := ((Session.start "/data" 100).run steps).1
        (s.step (.count c)).2 = .number n → ((s.prune chosen).step (.count c)).2 = .number n := by
  intro absent
  have operations : Step.AreOperations [.putBytes (Key.of .inode 2) []] := by
    simp [Step.AreOperations, Step.IsOperation]
  have counted := absent _ operations (· == Key.of .inode 2) (by decide) .inode 1 rfl
  cases counted

end FileCatalog
