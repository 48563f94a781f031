import FileCatalog.Proofs.KeyOrder
import FileCatalog.Proofs.Parts
import FileCatalog.Proofs.Position
import FileCatalog.Proofs.RoundTrip

/-!
# Where records come from

A store hands out what was written to it. `Session.Course.handsOut_written` says so for records of
any kind, at any moment of a run: a record that is looked up, or that a scan of the store or of a
snapshot visits, stands in octets that a write of the run committed under a key of its collection,
or that were there when the store was opened. The write may have been one of octets.

So a store keeps no promise about records that is not kept by all that is written. Parts of uploads
are the case in point: `uploads_kept_as_written` says that uploads are handed out with their parts
in order if they are written so, and that the store takes, and hands out again, uploads whose parts
are in no order at all. On these the search for a part fails.
-/

namespace FileCatalog

/-! ## Readings -/

/-- The table has the record under a key between the bounds of its collection. -/
def Table.Holds (t : Table) (c : Collection) (r : c.Record) : Prop :=
  ∃ key value, t.get? key = some value ∧ c.least ≤ key ∧ key ≤ c.boundary ∧ c.decode value = .ok r

/-- An item that is offered was read from one of the items. -/
theorem Offer.exists_of_mem_reading {α β : Type} {read : α → Except StoreError β} {items : List α}
    {b : β} (offered : b ∈ (reading read items).items) : ∃ a ∈ items, read a = .ok b := by
  induction items with
  | nil => cases offered
  | cons a rest ih =>
    rw [reading] at offered
    cases found : read a with
    | error e =>
      rw [found] at offered
      cases offered
    | ok b' =>
      rw [found] at offered
      rcases List.mem_cons.mp offered with rfl | later
      · exact ⟨a, List.mem_cons_self, found⟩
      · obtain ⟨a', member, read⟩ := ih later
        exact ⟨a', List.mem_cons_of_mem a member, read⟩

namespace Target

/-- A record that is offered is held by the table. -/
theorem holds_of_mem_offer {target : Target} {t : Table} {c : Collection} {r : c.Record}
    (offered : .record c r ∈ (target.offer t).items) : t.Holds c r := by
  -- All scans of records read the values between two keys of the collection.
  have held : ∀ {c' : Collection} {first last : Bytes} {r' : c'.Record}, c'.least ≤ first →
      last ≤ c'.boundary → r' ∈ (Offer.reading c'.decode (t.valuesIn first last)).items →
        t.Holds c' r' := by
    intro c' first last r' above below offered
    obtain ⟨value, member, read⟩ := Offer.exists_of_mem_reading offered
    obtain ⟨⟨key, value⟩, entry, rfl⟩ := List.mem_map.mp member
    obtain ⟨entry, from_first, to_last⟩ := OrderedMap.mem_range.mp entry
    exact ⟨key, value, OrderedMap.get?_eq_some_iff.mpr entry, List.le_trans above from_first,
      List.le_trans to_last below, read⟩
  have least : ∀ (c' : Collection) (id : c'.Identity), c'.least ≤ Key.of c' id := fun c' id =>
    List.le_of_lt (Key.least_lt_of c' id)
  cases target with
  | bytes | values =>
    obtain ⟨value, -, same⟩ := List.mem_map.mp offered
    cases same
  | records c' =>
    obtain ⟨r', member, same⟩ := List.mem_map.mp offered
    cases same
    exact held (List.le_refl _) (List.le_refl _) member
  | between c' first last =>
    obtain ⟨r', member, same⟩ := List.mem_map.mp offered
    cases same
    exact held (least _ first) (lastKey_le_boundary _ last) member
  | children parent =>
    obtain ⟨r', member, same⟩ := List.mem_map.mp offered
    cases same
    have among := (List.takeWhile_prefix _).subset member
    exact held (least .dentry ⟨parent, ""⟩) (lastChild_le_boundary parent) among

end Target

/-- A record is found in the octets under its key, if there are any. -/
theorem Store.get_eq_ok_iff {s : Store} (inUse : s.isClosed = false) {c : Collection}
    {id : c.Identity} {r : c.Record} :
    s.get c id = .ok r ↔
      ∃ value, s.committed.get? (Key.of c id) = some value ∧ value ≠ [] ∧ c.decode value = .ok r := by
  simp only [get, Store.getBytes_of_inUse inUse, bind, Except.bind]
  cases s.committed.get? (Key.of c id) with
  | none => simp [throw, throwThe, MonadExceptOf.throw]
  | some value =>
    cases value with
    | nil => simp [throw, throwThe, MonadExceptOf.throw]
    | cons b rest => simp

theorem Store.get_of_released {s : Store} (released : s.isClosed = true) (c : Collection)
    (id : c.Identity) : s.get c id = .error .closed := by
  simp only [get, Store.getBytes, table_of_released released]
  rfl

namespace Session

/-- The record is the answer to a question, or a scan visits it. -/
inductive HandsOut (s : Session) (c : Collection) (r : c.Record) : Prop
  | get {id : c.Identity} (got : (s.step (.get c id)).2 = .record c r)
  | scan {view : Option String} {target : Target} {halt : Halt} {during : List Step}
      {seen : List Item} {fault : Option (ScanFault Nat)} {replies : Option (List Reply)}
      (scanned : (s.step (.scan view target halt during)).2 = .scanned seen fault replies)
      (visited : .record c r ∈ seen)

/-- The table can be read: it is the committed one, or that of a snapshot. -/
def Reads (s : Session) (t : Table) : Prop :=
  t = s.store.committed ∨ ∃ name view, s.snapshot? name = some view ∧ t = view.table

/-- A visit adds its item to those seen. -/
theorem visitor_seen (halt : Halt) (inside : Session → Session × List Reply) (v : Visit)
    (item : Item) : (visitor halt inside v item).1.seen = v.seen ++ [item] := by
  simp only [visitor]
  split_ifs <;> rfl

/-- A scan visits nothing but what it is offered. -/
theorem seen_subset_offer {halt : Halt} {inside : Session → Session × List Reply} {v : Visit}
    {o : Offer Item} (unseen : v.seen = []) :
    (Scan.present (visitor halt inside) o.fault v o.items).1.seen ⊆ o.items := by
  refine Scan.present_preserves_among (P := fun v : Visit => v.seen ⊆ o.items) ?_ ?_
  · intro v item offered before
    rw [visitor_seen]
    exact List.append_subset.mpr ⟨before, List.cons_subset.mpr ⟨offered, List.nil_subset _⟩⟩
  · rw [unseen]
    exact List.nil_subset _

/-- A session answers with a record exactly if its store does. -/
theorem step_get (s : Session) {c : Collection} {id : c.Identity} {r : c.Record} :
    (s.step (.get c id)).2 = .record c r ↔ s.store.get c id = .ok r := by
  rw [step]
  cases s.store.get c id with
  | ok r' => simp [Reply.ofExcept]
  | error e => simp [Reply.ofExcept]

/-- What is handed out is held by a table that can be read. -/
theorem HandsOut.held {s : Session} {c : Collection} {r : c.Record} (out : s.HandsOut c r) :
    ∃ t, s.Reads t ∧ t.Holds c r := by
  cases out with
  | @get id got =>
    have found := s.step_get.mp got
    cases released : s.store.isClosed with
    | true =>
      rw [Store.get_of_released released] at found
      cases found
    | false =>
      obtain ⟨value, stored, -, read⟩ := (Store.get_eq_ok_iff released).mp found
      exact ⟨s.store.committed, Or.inl rfl, Key.of c id, value, stored,
        List.le_of_lt (Key.least_lt_of c id), List.le_of_lt (Key.of_lt_boundary c id), read⟩
  | @scan view target halt during seen fault replies scanned visited =>
    rw [step] at scanned
    unfold Session.scan at scanned
    cases view with
    | none =>
      cases released : s.store.isClosed with
      | true =>
        simp only [Target.onStore_closed target released] at scanned
        cases scanned
        cases visited
      | false =>
        simp only [Target.onStore_eq target released] at scanned
        cases scanned
        exact ⟨s.store.committed, Or.inl rfl,
          Target.holds_of_mem_offer (seen_subset_offer rfl visited)⟩
    | some name =>
      cases held : s.snapshot? name with
      | none =>
        simp only [held] at scanned
        cases scanned
      | some view =>
        simp only [held, Target.onSnapshot_eq] at scanned
        cases scanned
        exact ⟨view.table, Or.inr ⟨name, view, held, rfl⟩,
          Target.holds_of_mem_offer (seen_subset_offer rfl visited)⟩

end Session

/-! ## Writings -/

/-- The record was written: octets that hold it stood under a key of its collection at the start, or
were put there by a commit. -/
def Written (origin : Table) (trace : List Event) (c : Collection) (r : c.Record) : Prop :=
  ∃ key value, c.least ≤ key ∧ key ≤ c.boundary ∧ c.decode value = .ok r ∧
    (origin.get? key = some value ∨ ∃ e ∈ trace, e.effect = .commit ⟨key, some value⟩)

namespace Ledger

/-- The last commit is among the states of the ledger. -/
theorem current_mem_history (l : Ledger) : l.current ∈ l.history := by
  obtain ⟨origin, durable, volatile⟩ := l
  rcases List.eq_nil_or_concat volatile with rfl | ⟨before, last, rfl⟩
  · rcases List.eq_nil_or_concat durable with rfl | ⟨before, last, rfl⟩
    · simp [current, recovered, history]
    · simp [current, recovered, history]
  · simp [current, history]

/-- An effect brings no state but the commit of its change. -/
theorem history_enter (l : Ledger) {e : Effect} {c : Commit} (member : c ∈ (l.enter e).history) :
    c ∈ l.history ∨ ∃ change, e = .commit change ∧ c = l.current.next change l.announced := by
  have first : c = (l.enter e).origin ∨ c ∈ (l.enter e).commits := List.mem_cons.mp member
  rw [origin_enter] at first
  rcases first with rfl | later
  · exact Or.inl List.mem_cons_self
  · exact (l.commits_enter later).imp_left (List.mem_cons_of_mem _)

/-- What every commit of a trace keeps holds of all states, if it holds of those before. -/
theorem follow_keeps {P : Table → Prop} {l : Ledger} {trace : List Event}
    (before : ∀ c ∈ l.history, P c.table)
    (kept : ∀ e ∈ trace, ∀ change, e.effect = .commit change →
      ∀ position t, P t → P (change.record position t)) :
    ∀ c ∈ (l.follow trace).history, P c.table := by
  induction trace generalizing l with
  | nil => exact before
  | cons e rest ih =>
    refine ih ?_ fun e' later => kept e' (List.mem_cons_of_mem _ later)
    intro c member
    rcases l.history_enter member with old | ⟨change, effect, rfl⟩
    · exact before c old
    · exact kept e List.mem_cons_self change effect _ _ (before _ l.current_mem_history)

end Ledger

/-- Whatever a table of the ledger holds was written. -/
theorem Ledger.written_of_holds {origin : Commit} {w openings : UInt64} {trace : List Event}
    {c : Collection} {r : c.Record}
    (held : ((Ledger.opened origin w openings).follow trace).current.table.Holds c r) :
    Written origin.table trace c r := by
  obtain ⟨key, value, found, above, below, read⟩ := held
  have data : key ≠ Key.applyIndex := by
    rintro rfl
    exact Key.applyIndex_not_between c ⟨above, below⟩
  let Sourced (t : Table) : Prop := ∀ value, t.get? key = some value →
    origin.table.get? key = some value ∨ ∃ e ∈ trace, e.effect = .commit ⟨key, some value⟩
  have start : ∀ c ∈ (Ledger.opened origin w openings).history, Sourced c.table := by
    intro c member value found
    cases List.mem_singleton.mp member
    exact Or.inl found
  have kept : ∀ e ∈ trace, ∀ change, e.effect = .commit change →
      ∀ position t, Sourced t → Sourced (change.record position t) := by
    rintro e listed ⟨key', value'⟩ effect position t before value found
    by_cases own : key = key'
    · subst own
      rw [Change.get?_record_self data] at found
      exact Or.inr ⟨e, listed, found ▸ effect⟩
    · rw [Change.get?_record_of_ne data own] at found
      exact before value found
  have sourced := Ledger.follow_keeps start kept _ (Ledger.current_mem_history _)
  exact ⟨key, value, above, below, read, sourced value found⟩

/-- What was written in a trace was written in a longer one. -/
theorem Written.mono {origin : Table} {trace more : List Event} {c : Collection} {r : c.Record}
    (written : Written origin trace c r) (longer : trace <+: more) : Written origin more c r := by
  obtain ⟨key, value, above, below, read, start | ⟨e, listed, effect⟩⟩ := written
  · exact ⟨key, value, above, below, read, Or.inl start⟩
  · exact ⟨key, value, above, below, read, Or.inr ⟨e, longer.subset listed, effect⟩⟩

/-- What a session hands out, at any moment of a run, was written to its store. -/
theorem Session.Course.handsOut_written {s₀ s : Session} {origin : Commit} {w : UInt64}
    {trace : List Event} (course : s₀.Course trace s)
    (opened : Store.load s₀.store.directory origin.table w = .ok s₀.store)
    (fresh : s₀.snapshots = []) {c : Collection} {r : c.Record} (out : s.HandsOut c r) :
    Written origin.table trace c r := by
  have start := Ledger.opened_describes opened s₀.writeBuffer
  obtain ⟨t, rfl | ⟨name, view, held, rfl⟩, holds⟩ := out.held
  · rw [(course.described start rfl).1.committed] at holds
    exact Ledger.written_of_holds holds
  · rcases course.snapshot?_origin start rfl held with first | ⟨before, reached, table⟩
    · rw [Session.snapshot?, fresh] at first
      cases first
    · rw [table] at holds
      exact (Ledger.written_of_holds holds).mono reached

/-- A store in use takes any record that has a key of its own, and hands it out again. -/
theorem Session.put_handsOut {s : Session} (inUse : s.store.isClosed = false) {c : Collection}
    {r : c.Record} (fits : c.Fits r) (checked : Store.checkRecord c r = .ok ()) :
    (s.step (.put c r)).2 = .done ∧ (s.step (.put c r)).1.HandsOut c r := by
  have step := Session.step_write inUse (.put c r)
  simp only [Write.refusal?, checked] at step
  have put : s.step (.put c r) =
      s.withStore (s.store.perform ⟨Key.ofRecord c r, some (c.encode r)⟩) .done := step
  have stillInUse : (s.store.perform ⟨Key.ofRecord c r, some (c.encode r)⟩).isClosed = false := by
    rw [Store.perform_isClosed]
    exact inUse
  have stored : (s.store.perform ⟨Key.ofRecord c r, some (c.encode r)⟩).committed.get?
      (Key.of c (c.identity r)) = some (c.encode r) := by
    rw [Store.perform_committed]
    exact Change.get?_record_self (Key.of_ne_applyIndex c _) _ _
  have found := (Store.get_eq_ok_iff stillInUse).mpr
    ⟨_, stored, Collection.encode_ne_nil fits, Collection.decode_encode fits⟩
  rw [put]
  exact ⟨rfl, .get ((Session.step_get _).mpr found)⟩

/-! ## Uploads -/

/-- **Uploads are kept as they are written, in order or not.** Let a store be opened and used in any
way. At every moment, an upload that is looked up, or that a scan of the store or of a snapshot
visits, was written, as a record or as octets. If all uploads that were written have their parts in
order, then so have all that are handed out; on these every part is found by its number, and
inserting a part never makes two of one number. But the store checks no order: in use, it takes any
upload that has a key of its own and hands it out again. -/
theorem uploads_kept_as_written {s₀ s : Session} {origin : Commit} {w : UInt64}
    {trace : List Event} (opened : Store.load s₀.store.directory origin.table w = .ok s₀.store)
    (fresh : s₀.snapshots = []) (reached : s₀.Course trace s) :
    (∀ u : Upload, s.HandsOut .upload u → Written origin.table trace .upload u) ∧
      ((∀ u : Upload, Written origin.table trace .upload u → u.Ordered) →
        ∀ u : Upload, s.HandsOut .upload u →
          u.Ordered ∧ (∀ p ∈ u.parts, u.part? p.number = some p) ∧
            ∀ p, (u.insertPart p).1.Ordered) ∧
      (s.store.isClosed = false → ∀ u : Upload, u.Fits →
        Store.checkRecord .upload u = .ok () →
          (s.step (.put .upload u)).2 = .done ∧
            (s.step (.put .upload u)).1.HandsOut .upload u) := by
  have written : ∀ u : Upload, s.HandsOut .upload u → Written origin.table trace .upload u :=
    fun u out => reached.handsOut_written opened fresh out
  refine ⟨written, fun ordered u out => ?_, fun inUse u fits checked => ?_⟩
  · have asc := ordered u (written u out)
    exact ⟨asc, fun p member => asc.part?_eq_some_iff.mpr ⟨member, rfl⟩, asc.insertPart⟩
  · exact Session.put_handsOut inUse (c := .upload) fits checked

/-- An upload of bare parts fits its layout. -/
private theorem fits_of_parts {parts : List Part} (few : parts.length < UInt64.size)
    (bare : ∀ p ∈ parts, p.md5 = "") :
    Upload.Fits { key := "k", upload := "u", parts := parts } where
  key := by
    show (Utf8.encode "k").length < UInt64.size
    decide
  upload := by
    show (Utf8.encode "u").length < UInt64.size
    decide
  parts := few
  eachPart p member := by
    rw [bare p member]
    unfold Text.Fits
    decide
  extend := by
    show 0 < UInt64.size
    decide
  eachEntry := nofun

/-- An upload with two parts in order, in an otherwise empty store. -/
theorem uploads_kept_as_written_in_order :
    let u : Upload := { key := "k", upload := "u", parts := [{ number := 1 }, { number := 2 }] }
    let s := ((Session.start "/data" 0).step (.put .upload u)).1
    s.HandsOut .upload u ∧ ∀ u', s.HandsOut .upload u' → u'.Ordered ∧
      ∀ p ∈ u'.parts, u'.part? p.number = some p := by
  intro u s
  have opened : Store.load "/data/store" Commit.empty.table 0 =
      .ok (Session.start "/data" 0).store := rfl
  have reached := Session.Course.start.step (s := Session.start "/data" 0) (.put .upload u) rfl
  have fits : Collection.upload.Fits u := fits_of_parts (by decide) (by simp)
  obtain ⟨done, out⟩ := Session.put_handsOut (s := Session.start "/data" 0) rfl fits rfl
  have ordered : ∀ u' : Upload, Written Commit.empty.table
      ([] ++ [⟨.put .upload u, ((Session.start "/data" 0).step (.put .upload u)).2⟩])
      .upload u' → u'.Ordered := by
    rintro u' ⟨key, value, -, -, read, found | ⟨e, listed, effect⟩⟩
    · cases found
    · obtain rfl := List.mem_singleton.mp listed
      rw [done] at effect
      cases effect
      rw [Collection.decode_encode fits] at read
      cases read
      decide
  obtain ⟨-, kept, -⟩ := uploads_kept_as_written opened rfl reached
  exact ⟨out, fun u' out' => ⟨(kept ordered u' out').1, (kept ordered u' out').2.1⟩⟩

/-- An upload with two parts in descending order is taken and handed out. The search misses its
first part, and inserting that part again makes two of its number. -/
theorem upload_handed_out_of_order :
    let u : Upload := { key := "k", upload := "u", parts := [{ number := 2 }, { number := 1 }] }
    let s := ((Session.start "/data" 0).step (.put .upload u)).1
    s.HandsOut .upload u ∧ ¬ u.Ordered ∧ u.part? 2 = none ∧
      (u.insertPart { number := 2 }).1.parts.map (·.number) = [2, 1, 2] := by
  intro u s
  have fits : Collection.upload.Fits u := fits_of_parts (by decide) (by simp)
  have out := (Session.put_handsOut (s := Session.start "/data" 0) rfl fits rfl).2
  refine ⟨out, by decide, ?_, ?_⟩
  · simp [u, Upload.part?, Part.locate, Part.halve]
  · simp [u, Upload.insertPart, Part.locate, Part.halve]

end FileCatalog
