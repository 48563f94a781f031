import FileCatalog.Proofs.KeyOrder
import FileCatalog.Proofs.Write

/-!
# What a scan offers

A scan is fixed before its first visit. `Offer` is what it has for its visitor: items in turn, and
the fault that stands behind the last of them when the next one cannot be read. `Target.offer`
tells the offer of a target as a function of the table alone.

`Target.onSnapshot_eq` and `Target.onStore_eq` say that every scan presents its offer and does
nothing else. They hold for visitors with a state of any type, a session that is written to in the
middle of the scan among them. Two ways to reason about a scan follow: `Scan.present_preserves`,
what every visit keeps the scan keeps, and `Scan.present_related`, visitors that answer alike see
alike.
-/

namespace FileCatalog

/-- What a scan has for its visitor: the items, and the fault that stands behind them. -/
structure Offer (α : Type) where
  items : List α
  fault : Option StoreError := none

namespace Offer

variable {α β : Type}

/-- The offer of what a function makes of the items. -/
def map (f : α → β) (o : Offer α) : Offer β := ⟨o.items.map f, o.fault⟩

/-- The offer as far as its items have a property. The fault is reached only if all have it. -/
def upTo (p : α → Prop) [DecidablePred p] (o : Offer α) : Offer α where
  items := o.items.takeWhile (p ·)
  fault := if ∀ a ∈ o.items, p a then o.fault else none

/-- What can be read of items, up to the first that cannot. -/
def reading (read : α → Except StoreError β) : List α → Offer β
  | [] => ⟨[], none⟩
  | a :: rest =>
    match read a with
    | .ok b => ⟨b :: (reading read rest).items, (reading read rest).fault⟩
    | .error e => ⟨[], some e⟩

end Offer

namespace Scan

variable {σ τ α β ε : Type}

/-- Offers the items in turn. A visitor that asks for more than there is meets the fault. -/
def present (visit : Visitor σ α (ScanFault ε)) (fault : Option StoreError) :
    σ → List α → σ × Option (ScanFault ε)
  | s, [] => (s, fault.map .store)
  | s, a :: rest =>
    match visit s a with
    | (s', .more) => present visit fault s' rest
    | (s', .enough) => (s', none)
    | (s', .fail e) => (s', some e)

/-- A walk is a scan with nothing behind its items. -/
theorem walk_eq_present (visit : Visitor σ α (ScanFault ε)) (s : σ) (items : List α) :
    walk visit s items = present visit none s items := by
  induction items generalizing s with
  | nil => rfl
  | cons a rest ih =>
    rw [walk, present]
    rcases visit s a with ⟨s', _ | _ | e⟩
    · exact ih s'
    · rfl
    · rfl

/-- A visitor of what is made of the items is one of the items themselves. -/
theorem present_map (visit : Visitor σ β (ScanFault ε)) (f : α → β) (fault : Option StoreError)
    (s : σ) (items : List α) :
    present (fun s a => visit s (f a)) fault s items = present visit fault s (items.map f) := by
  induction items generalizing s with
  | nil => rfl
  | cons a rest ih =>
    rw [List.map_cons, present, present]
    rcases visit s (f a) with ⟨s', _ | _ | e⟩
    · exact ih s'
    · rfl
    · rfl

/-- A walk that decodes on the way is a scan of what can be read, with the fault behind it. -/
theorem walk_decoding (read : α → Except StoreError β) (visit : Visitor σ β (ScanFault ε)) (s : σ)
    (items : List α) :
    walk (decoding read visit) s items =
      present visit (Offer.reading read items).fault s (Offer.reading read items).items := by
  induction items generalizing s with
  | nil => rfl
  | cons a rest ih =>
    rw [walk, decoding, Offer.reading]
    cases read a with
    | error e => rfl
    | ok b =>
      simp only [present]
      rcases visit s b with ⟨s', _ | _ | e⟩
      · exact ih s'
      · rfl
      · rfl

/-- A visitor that ends at the first item without a property is presented the items before it. -/
theorem present_upTo (p : α → Prop) [DecidablePred p] (visit : Visitor σ α (ScanFault ε)) (s : σ)
    (o : Offer α) :
    present (fun s a => if p a then visit s a else (s, .enough)) o.fault s o.items =
      present visit (o.upTo p).fault s (o.upTo p).items := by
  obtain ⟨items, fault⟩ := o
  -- The induction is on the items alone: the fault stands for all of them or for none.
  simp only [Offer.upTo]
  induction items generalizing s with
  | nil => simp [present]
  | cons a rest ih =>
    by_cases hp : p a
    · have hall : (∀ b ∈ a :: rest, p b) ↔ ∀ b ∈ rest, p b := by simp [hp]
      simp only [hall, List.takeWhile_cons, hp, decide_true, if_true, present]
      rcases visit s a with ⟨s', _ | _ | e⟩
      · exact ih s'
      · rfl
      · rfl
    · have hall : ¬ ∀ b ∈ a :: rest, p b := fun h => hp (h a List.mem_cons_self)
      rw [if_neg hall, List.takeWhile_cons, decide_eq_false hp, present]
      simp only [if_neg hp]
      rfl

/-- What every visit to one of the items keeps is kept by the scan. -/
theorem present_preserves_among {P : σ → Prop} {visit : Visitor σ α (ScanFault ε)}
    {fault : Option StoreError} {s : σ} {items : List α}
    (keeps : ∀ s, ∀ a ∈ items, P s → P (visit s a).1) (start : P s) :
    P (present visit fault s items).1 := by
  induction items generalizing s with
  | nil => exact start
  | cons a rest ih =>
    have next := keeps s a List.mem_cons_self start
    have later := fun s b hb => keeps s b (List.mem_cons_of_mem a hb)
    rw [present]
    rcases hv : visit s a with ⟨s', _ | _ | e⟩ <;> rw [hv] at next
    · exact ih later next
    · exact next
    · exact next

theorem present_preserves {P : σ → Prop} {visit : Visitor σ α (ScanFault ε)}
    (keeps : ∀ s a, P s → P (visit s a).1) {fault : Option StoreError} {s : σ} {items : List α}
    (start : P s) : P (present visit fault s items).1 :=
  present_preserves_among (fun s a _ => keeps s a) start

/-- Visitors that answer alike in related states see the same items: they end in related states,
and with the same fault. -/
theorem present_related {R : σ → τ → Prop} {visit : Visitor σ α (ScanFault ε)}
    {other : Visitor τ α (ScanFault ε)}
    (keeps : ∀ s t a, R s t → R (visit s a).1 (other t a).1 ∧ (visit s a).2 = (other t a).2)
    {fault : Option StoreError} {s : σ} {t : τ} {items : List α} (start : R s t) :
    R (present visit fault s items).1 (present other fault t items).1 ∧
      (present visit fault s items).2 = (present other fault t items).2 := by
  induction items generalizing s t with
  | nil => exact ⟨start, rfl⟩
  | cons a rest ih =>
    obtain ⟨next, same⟩ := keeps s t a start
    rw [present, present]
    rcases hv : visit s a with ⟨s', answer⟩
    rcases ho : other t a with ⟨t', answer'⟩
    rw [hv, ho] at next same
    cases same
    cases answer with
    | more => exact ih next
    | enough => exact ⟨next, rfl⟩
    | fail e => exact ⟨next, rfl⟩

/-! ## Visitors that never stop -/

/-- The visitor asks for more, whatever it is offered. -/
def Tireless (visit : Visitor σ α ε) : Prop := ∀ s a, (visit s a).2 = .more

/-- The state after a visit to each of the items, and no error. -/
def visited (visit : Visitor σ α ε) (s : σ) (items : List α) : σ × Option ε :=
  (items.foldl (fun s a => (visit s a).1) s, none)

/-- All items are visited, and a fault behind them is met. -/
theorem Tireless.present_eq {visit : Visitor σ α (ScanFault ε)} (tireless : Tireless visit)
    (fault : Option StoreError) (s : σ) (items : List α) :
    present visit fault s items = (items.foldl (fun s a => (visit s a).1) s, fault.map .store) := by
  induction items generalizing s with
  | nil => rfl
  | cons a rest ih =>
    have more := tireless s a
    rw [present, List.foldl_cons]
    rcases hv : visit s a with ⟨s', verdict⟩
    rw [hv] at more
    cases more
    exact ih s'

/-- A visitor that always asks for more walks through all items. -/
theorem Tireless.walk_eq {visit : Visitor σ α (ScanFault ε)} (tireless : Tireless visit) (s : σ)
    (items : List α) : walk visit s items = visited visit s items := by
  rw [walk_eq_present, tireless.present_eq]
  rfl

end Scan

/-! ## The offers of the targets -/

namespace Target

variable {σ : Type}

/-- The octets up to which the records of a collection are scanned. -/
def lastKey (c : Collection) : Option c.Identity → Bytes
  | some id => Key.of c id
  | none => c.boundary

/-- The last key that a listing of the directory looks at. -/
def lastChild (parent : UInt64) : Bytes :=
  match Counting.addChecked parent 1 with
  | .ok next => Key.of .dentry ⟨next, ""⟩
  | .error _ => Collection.dentry.boundary

/-- A range of a collection ends at its boundary at the latest. -/
theorem lastKey_le_boundary (c : Collection) (last : Option c.Identity) :
    lastKey c last ≤ c.boundary := by
  cases last with
  | none => exact List.le_refl _
  | some bound => exact List.le_of_lt (Key.of_lt_boundary c bound)

theorem lastChild_le_boundary (parent : UInt64) :
    lastChild parent ≤ Collection.dentry.boundary := by
  unfold lastChild
  split
  · exact List.le_of_lt (Key.of_lt_boundary .dentry _)
  · exact List.le_refl _

/-- What a target has to offer in a table. -/
def offer (t : Target) (table : Table) : Offer Item :=
  match t with
  | bytes first last => Offer.map .value ⟨table.valuesIn first last, none⟩
  | values c => Offer.map .value ⟨table.valuesIn c.least c.boundary, none⟩
  | records c => (Offer.reading c.decode (table.valuesIn c.least c.boundary)).map (.record c)
  | between c first last =>
    (Offer.reading c.decode (table.valuesIn (Key.of c first) (lastKey c last))).map (.record c)
  | children parent =>
    ((Offer.reading Collection.dentry.decode
      (table.valuesIn (Key.of .dentry ⟨parent, ""⟩) (lastChild parent))).upTo
        (·.parent = parent)).map (.record .dentry)

/-- A scan of a snapshot presents the offer of its table. -/
theorem onSnapshot_eq (t : Target) (view : Snapshot) (visit : Scan.Visitor σ Item (ScanFault Nat))
    (state : σ) :
    t.onSnapshot view visit state =
      Scan.present visit (t.offer view.table).fault state (t.offer view.table).items := by
  cases t with
  | bytes first last =>
    rw [onSnapshot, Snapshot.rangeBytes, Scan.walk_eq_present, Scan.present_map]
    rfl
  | values c =>
    rw [onSnapshot, Snapshot.rangeCollection, Snapshot.rangeBytes, Scan.walk_eq_present,
      Scan.present_map]
    rfl
  | records c =>
    rw [onSnapshot, Snapshot.scan, Snapshot.rangeCollection, Snapshot.rangeBytes,
      Scan.walk_decoding, Scan.present_map]
    rfl
  | between c first last =>
    simp only [onSnapshot, Snapshot.rangeRecords, Snapshot.rangeBytes, Scan.walk_decoding]
    rw [Scan.present_map visit (Item.record c)]
    cases last <;> rfl
  | children parent =>
    simp only [onSnapshot, Snapshot.children, Snapshot.rangeBytes, Scan.walk_decoding]
    rw [Scan.present_upTo (fun d : Dentry => d.parent = parent)
      (fun v d => visit v (.record .dentry d)), Scan.present_map visit (Item.record .dentry)]
    rfl

/-- A scan of a store in use presents the offer of the table as it is committed now. -/
theorem onStore_eq (t : Target) {s : Store} (inUse : s.isClosed = false)
    (visit : Scan.Visitor σ Item (ScanFault Nat)) (state : σ) :
    t.onStore s visit state =
      Scan.present visit (t.offer s.committed).fault state (t.offer s.committed).items := by
  have view := Store.snapshot_of_inUse inUse
  rw [← onSnapshot_eq t ⟨s.directory, s.committed⟩]
  cases t with
  | bytes first last => rw [onStore, Store.rangeBytes, view]; rfl
  | values c => simp only [onStore, view]
  | records c => simp only [onStore, view]
  | between c first last => rw [onStore, Store.range, view]; rfl
  | children parent => rw [onStore, Store.children, view]; rfl

/-- A scan of a released store visits nothing and is refused. -/
theorem onStore_closed (t : Target) {s : Store} (released : s.isClosed = true)
    (visit : Scan.Visitor σ Item (ScanFault Nat)) (state : σ) :
    t.onStore s visit state = (state, some (.store .closed)) := by
  have view := Store.snapshot_of_released released
  cases t with
  | bytes first last => rw [onStore, Store.rangeBytes, view]
  | values c => simp only [onStore, view]
  | records c => simp only [onStore, view]
  | between c first last => rw [onStore, Store.range, view]
  | children parent => rw [onStore, Store.children, view]

end Target

/-- A count is the number of entries from the byte of a collection alone to the next byte alone. -/
theorem Snapshot.count_eq (view : Snapshot) (c : Collection) :
    view.count c = (view.table.range c.least c.boundary).length := by
  let counting : Scan.Visitor Nat Bytes (ScanFault Empty) := fun n _ => (n + 1, .more)
  have tireless : Scan.Tireless counting := fun _ _ => rfl
  have counted : ∀ (values : List Bytes) (n : Nat),
      values.foldl (fun n value => (counting n value).1) n = n + values.length := by
    intro values
    induction values with
    | nil => exact fun n => rfl
    | cons value rest ih =>
      intro n
      rw [List.foldl_cons, ih, List.length_cons, Nat.add_assoc, Nat.add_comm 1]
  rw [count, rangeCollection, rangeBytes, tireless.walk_eq, Scan.visited, counted, Nat.zero_add,
    Table.valuesIn, List.length_map]

end FileCatalog
