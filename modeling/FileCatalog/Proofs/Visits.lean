import FileCatalog.Proofs.Isolation
import Mathlib.Data.List.Forall2

/-!
# How scans end

A scan calls its visitor on one item after another. It ends in one of three ways: the visitor has
had enough, the visitor fails, or no item is left. If the items are records that are read from
octets, there is a fourth: the next octets hold no record. `Scan.Ends` says which of these comes
first, in terms of the offer of the scan and of the visitor's answers alone: on which items the
visitor is called, and with what result the scan ends. `Ends.unique` says that this settles both.

`scans_end_as_answered` is about all scans of a store and of a snapshot, whatever the octets are and
whatever the visitor. The offer is told by the entries between two keys (`Table.IsRange`) and, for
records, by what can be read of them (`Collection.Reads`). That nothing but the calls happens is
told twice: the visitor's state is the one after these calls, and a visitor that notes its calls has
noted these.

Which records there are between two keys is another matter; nothing is assumed of the contents
here.
-/

namespace FileCatalog

/-! ## Calls -/

namespace Scan

variable {σ α ε : Type}

/-- The state after calls of the visitor on items in turn, whatever its answers. -/
def after (visit : Visitor σ α ε) (s : σ) (items : List α) : σ :=
  items.foldl (fun s a => (visit s a).1) s

/-- The visitor, called on items in turn, asks for more each time. -/
def AsksOn (visit : Visitor σ α ε) (s : σ) (items : List α) : Prop :=
  ∀ front a rest, items = front ++ a :: rest → (visit (after visit s front) a).2 = .more

/-- How a scan ends: the items on which the visitor is called, and the result. -/
inductive Ends (visit : Visitor σ α (ScanFault ε)) (s : σ) (o : Offer α) :
    List α → Option (ScanFault ε) → Prop
  /-- All items are visited, and if a fault stands behind them, it is the result. -/
  | whole (more : AsksOn visit s o.items) : Ends visit s o o.items (o.fault.map .store)
  /-- The first call that is not answered by asking for more is answered by having enough. -/
  | enough (front : List α) (a : α) (rest : List α) (items : o.items = front ++ a :: rest)
      (more : AsksOn visit s front) (answer : (visit (after visit s front) a).2 = .enough) :
      Ends visit s o (front ++ [a]) none
  /-- The first call that is not answered by asking for more fails. -/
  | fail (front : List α) (a : α) (rest : List α) (e : ScanFault ε)
      (items : o.items = front ++ a :: rest) (more : AsksOn visit s front)
      (answer : (visit (after visit s front) a).2 = .fail e) :
      Ends visit s o (front ++ [a]) (some e)

section Calls

variable {visit : Visitor σ α ε} {s : σ}

theorem after_concat (front : List α) (a : α) :
    after visit s (front ++ [a]) = (visit (after visit s front) a).1 := by
  simp [after]

theorem asksOn_nil : AsksOn visit s [] := by
  intro front a rest none
  simp at none

/-- A visitor asks on through a list if it does at the head and then, in its new state, through the
rest. -/
theorem asksOn_cons {a : α} {rest : List α} :
    AsksOn visit s (a :: rest) ↔ (visit s a).2 = .more ∧ AsksOn visit (visit s a).1 rest := by
  constructor
  · intro more
    exact ⟨more [] a rest rfl, fun front b later split => more (a :: front) b later (split ▸ rfl)⟩
  · rintro ⟨first, more⟩ front b later split
    cases front with
    | nil =>
      cases split
      exact first
    | cons a' front =>
      rw [List.cons_append, List.cons.injEq] at split
      obtain ⟨rfl, split⟩ := split
      exact more front b later split

/-- A visitor that notes its items has noted them all, in order. -/
theorem after_noting (seen : List α) (items : List α) :
    after (noting visit) (seen, s) items = (seen ++ items, after visit s items) := by
  induction items generalizing seen s with
  | nil => rw [List.append_nil]; rfl
  | cons a rest ih =>
    have later : after (noting visit) (seen ++ [a], (visit s a).1) rest =
        (seen ++ [a] ++ rest, after visit (visit s a).1 rest) := ih _
    rw [List.append_assoc] at later
    exact later

/-- Noting the items changes no answer. -/
theorem AsksOn.noting {items : List α} (more : AsksOn visit s items) (seen : List α) :
    AsksOn (noting visit) (seen, s) items := by
  intro front a rest split
  rw [after_noting]
  exact more front a rest split

end Calls

/-! ## The three ends of a scan -/

variable {visit : Visitor σ α (ScanFault ε)} {s : σ}

/-- The first call decides whether there are more. -/
theorem present_cons (fault : Option StoreError) (a : α) (rest : List α) :
    present visit fault s (a :: rest) =
      match (visit s a).2 with
      | .more => present visit fault (visit s a).1 rest
      | .enough => ((visit s a).1, none)
      | .fail e => ((visit s a).1, some e) := by
  rw [present]
  rcases visit s a with ⟨s', _ | _ | e⟩ <;> rfl

/-- Items that the visitor asks on through only move its state. -/
theorem AsksOn.present_append {front : List α} (more : AsksOn visit s front)
    (fault : Option StoreError) (rest : List α) :
    present visit fault s (front ++ rest) = present visit fault (after visit s front) rest := by
  induction front generalizing s with
  | nil => rfl
  | cons a front ih =>
    obtain ⟨first, later⟩ := asksOn_cons.mp more
    rw [List.cons_append, present_cons, first]
    exact ih later

/-- A scan comes to an end in one of the ways. -/
theorem exists_ends (visit : Visitor σ α (ScanFault ε)) (s : σ) (o : Offer α) :
    ∃ called result, Ends visit s o called result := by
  obtain ⟨items, fault⟩ := o
  induction items generalizing s with
  | nil => exact ⟨_, _, .whole asksOn_nil⟩
  | cons a rest ih =>
    cases answer : (visit s a).2 with
    | enough => exact ⟨_, _, .enough [] a rest rfl asksOn_nil answer⟩
    | fail e => exact ⟨_, _, .fail [] a rest e rfl asksOn_nil answer⟩
    | more =>
      obtain ⟨called, result, ends⟩ := ih (visit s a).1
      cases ends with
      | whole more => exact ⟨_, _, .whole (asksOn_cons.mpr ⟨answer, more⟩)⟩
      | enough front b later items more stop =>
        exact ⟨_, _, .enough (a :: front) b later (congrArg (a :: ·) items)
          (asksOn_cons.mpr ⟨answer, more⟩) stop⟩
      | fail front b later e items more stop =>
        exact ⟨_, _, .fail (a :: front) b later e (congrArg (a :: ·) items)
          (asksOn_cons.mpr ⟨answer, more⟩) stop⟩

namespace Ends

variable {o : Offer α} {called : List α} {result : Option (ScanFault ε)}

/-- The scan leaves the state after its calls, and the result. -/
theorem present_eq (ends : Ends visit s o called result) :
    present visit o.fault s o.items = (after visit s called, result) := by
  cases ends with
  | whole more =>
    have all := more.present_append o.fault []
    rw [List.append_nil] at all
    exact all
  | enough front a rest items more answer =>
    rw [items, more.present_append, present_cons, answer, after_concat]
  | fail front a rest e items more answer =>
    rw [items, more.present_append, present_cons, answer, after_concat]

/-- A visitor that notes its calls ends the scan where the visitor without notes does. -/
theorem noting (ends : Ends visit s o called result) (seen : List α) :
    Ends (noting visit) (seen, s) o called result := by
  have told : ∀ front a, (Scan.noting visit (after (Scan.noting visit) (seen, s) front) a).2 =
      (visit (after visit s front) a).2 := fun front a => by
    rw [after_noting]
    rfl
  cases ends with
  | whole more => exact .whole (more.noting seen)
  | enough front a rest items more answer =>
    exact .enough front a rest items (more.noting seen) ((told front a).trans answer)
  | fail front a rest e items more answer =>
    exact .fail front a rest e items (more.noting seen) ((told front a).trans answer)

/-- The items noted in a scan are the calls of its end. -/
theorem present_noting (ends : Ends visit s o called result) :
    present (Scan.noting visit) o.fault ([], s) o.items =
      ((called, after visit s called), result) := by
  rw [(ends.noting []).present_eq, after_noting, List.nil_append]

/-- The offer and the answers settle how a scan ends. -/
theorem unique (ends : Ends visit s o called result) {called' : List α}
    {result' : Option (ScanFault ε)} (ends' : Ends visit s o called' result') :
    called = called' ∧ result = result' := by
  have same := ends.present_noting.symm.trans ends'.present_noting
  rw [Prod.mk.injEq, Prod.mk.injEq] at same
  exact ⟨same.1.1, same.2⟩

end Ends

/-- The scan calls its visitor on items of the offer, up to where the visitor's answers or the offer
end it, and does nothing else. -/
def Presents (scan : ∀ {σ : Type}, Visitor σ α (ScanFault ε) → σ → σ × Option (ScanFault ε))
    (o : Offer α) : Prop :=
  ∀ {σ : Type} (visit : Visitor σ α (ScanFault ε)) (s : σ), ∃ called result,
    Ends visit s o called result ∧ scan visit s = (after visit s called, result) ∧
      scan (noting visit) ([], s) = ((called, after visit s called), result)

/-- The loop presents what it is offered. -/
theorem presents_present (o : Offer α) :
    Presents (ε := ε) (fun visit s => present visit o.fault s o.items) o := by
  intro σ visit s
  obtain ⟨called, result, ends⟩ := exists_ends visit s o
  exact ⟨called, result, ends, ends.present_eq, ends.present_noting⟩

end Scan

/-! ## What is offered -/

/-- The entries of a table from one key to another, both included, each once and by ascending
key. -/
structure Table.IsRange (t : Table) (first last : Bytes) (entries : List (Bytes × Bytes)) :
    Prop where
  ascending : entries.Pairwise fun a b => a.1 < b.1
  mem_iff : ∀ {key value : Bytes}, (key, value) ∈ entries ↔
    t.get? key = some value ∧ first ≤ key ∧ key ≤ last

/-- A range of the table has exactly the entries within its bounds, ascending. -/
theorem Table.isRange (t : Table) (first last : Bytes) :
    t.IsRange first last (t.range first last) where
  ascending := t.ascending_range first last
  mem_iff := by
    intro key value
    rw [OrderedMap.mem_range, OrderedMap.get?_eq_some_iff]
    rfl

namespace Collection

variable (c : Collection)

/-- What can be read of octets in turn: a record of each; or a record of each before the first that
hold none, and behind these records the fault of the collection. -/
inductive Reads : List Bytes → Offer c.Record → Prop
  | all {values : List Bytes} {rs : List c.Record}
      (read : List.Forall₂ (fun value r => c.decode value = .ok r) values rs) :
      Reads values ⟨rs, none⟩
  | upTo (front : List Bytes) (damaged : Bytes) (rest : List Bytes) {rs : List c.Record}
      {fault : LayoutFault} (read : List.Forall₂ (fun value r => c.decode value = .ok r) front rs)
      (refused : c.decode damaged = .error (.decode c fault)) :
      Reads (front ++ damaged :: rest) ⟨rs, some (.decode c fault)⟩

/-- A decoder fails by saying what was to be read and what was found instead. -/
theorem decode_eq_error {c : Collection} {value : Bytes} {e : StoreError}
    (refused : c.decode value = .error e) : ∃ fault, e = .decode c fault := by
  unfold decode at refused
  split at refused
  · cases refused
  · cases refused
    exact ⟨_, rfl⟩

/-- Values in turn are read up to the first that is no record. -/
theorem reads_reading (values : List Bytes) : c.Reads values (.reading c.decode values) := by
  induction values with
  | nil => exact .all .nil
  | cons value rest ih =>
    rw [Offer.reading]
    cases decoded : c.decode value with
    | error e =>
      obtain ⟨fault, rfl⟩ := decode_eq_error decoded
      exact .upTo [] value rest .nil decoded
    | ok r =>
      -- The record stands before those of the rest, however they end.
      generalize Offer.reading c.decode rest = o at ih
      cases ih with
      | all read => exact .all (.cons decoded read)
      | upTo front damaged later read refused =>
        exact .upTo (value :: front) damaged later (.cons decoded read) refused

end Collection

/-! ## The scans of a snapshot and of a store -/

section Scans

variable {ε : Type} (view : Snapshot)

/-- A raw scan of a snapshot presents the values within its bounds. -/
theorem Snapshot.presents_rangeBytes (first last : Bytes) :
    Scan.Presents (ε := ε) (view.rangeBytes first last) ⟨view.table.valuesIn first last, none⟩ := by
  intro σ visit state
  simp only [rangeBytes, Scan.walk_eq_present]
  exact Scan.presents_present ⟨view.table.valuesIn first last, none⟩ visit state

/-- A scan of octets that are decoded first presents what can be read of them. -/
theorem Snapshot.presents_decoding (c : Collection) (first last : Bytes) :
    Scan.Presents (ε := ε)
      (fun visit state => view.rangeBytes first last (Scan.decoding c.decode visit) state)
      (.reading c.decode (view.table.valuesIn first last)) := by
  intro σ visit state
  simp only [rangeBytes, Scan.walk_decoding]
  exact Scan.presents_present (.reading c.decode (view.table.valuesIn first last)) visit state

/-- A typed scan of a snapshot presents the records within its bounds, up to a value that is none.
-/
theorem Snapshot.presents_rangeRecords (c : Collection) (first : c.Identity)
    (last : Option c.Identity) :
    Scan.Presents (ε := ε) (view.rangeRecords c first last)
      (.reading c.decode (view.table.valuesIn (Key.of c first) (Target.lastKey c last))) := by
  cases last <;> exact view.presents_decoding c (Key.of c first) _

variable {view} {s : Store} (current : s.snapshot = .ok view)
include current

/-- A raw scan of the store is one of a snapshot taken then. -/
theorem Store.rangeBytes_of_snapshot {σ : Type} (first last : Bytes)
    (visit : Scan.Visitor σ Bytes (ScanFault ε)) (state : σ) :
    s.rangeBytes first last visit state = view.rangeBytes first last visit state := by
  simp only [rangeBytes, current]

/-- A typed scan of the store is one of a snapshot taken then. -/
theorem Store.range_of_snapshot {σ : Type} (c : Collection) (first : c.Identity)
    (last : Option c.Identity) (visit : Scan.Visitor σ c.Record (ScanFault ε)) (state : σ) :
    s.range c first last visit state = view.rangeRecords c first last visit state := by
  simp only [range, current]

end Scans

/-- **Scans end as their visitors answer, or where octets hold no record.** Take any snapshot, or
any store in use, whatever its contents. A scan from one key to another calls its visitor on the
values of the keys between them, both included, each once and by ascending key, up to and including
the first call that is not answered by asking for more; the result is the error of that call, if it
is one. If the first key is behind the last, nothing is called. A scan of records calls its visitor
likewise on what can be read of the values. If it comes by a value that cannot be read, it ends
there with the fault of the collection; it does not come there if a call ends it before. -/
theorem scans_end_as_answered {ε : Type} (view : Snapshot) :
    (∀ first last, view.table.IsRange first last (view.table.range first last)) ∧
      (∀ (c : Collection) (values : List Bytes), c.Reads values (.reading c.decode values)) ∧
      (∀ first last,
        let entries := view.table.range first last
        Scan.Presents (ε := ε) (view.rangeBytes first last) ⟨entries.map (·.2), none⟩ ∧
          ∀ {σ : Type} (visit : Scan.Visitor σ Bytes (ScanFault ε)) (state : σ),
            (last < first → view.rangeBytes first last visit state = (state, none)) ∧
              ∀ s : Store, s.snapshot = .ok view →
                s.rangeBytes first last visit state = view.rangeBytes first last visit state) ∧
      (∀ (c : Collection) (first : c.Identity) (last : Option c.Identity),
        let entries := view.table.range (Key.of c first) (Target.lastKey c last)
        Scan.Presents (ε := ε) (view.rangeRecords c first last)
            (.reading c.decode (entries.map (·.2))) ∧
          ∀ {σ : Type} (visit : Scan.Visitor σ c.Record (ScanFault ε)) (state : σ) (s : Store),
            s.snapshot = .ok view →
              s.range c first last visit state = view.rangeRecords c first last visit state) ∧
      ∀ c : Collection,
        let entries := view.table.range c.least c.boundary
        Scan.Presents (ε := ε) (view.rangeCollection c) ⟨entries.map (·.2), none⟩ ∧
          Scan.Presents (ε := ε) (view.scan c) (.reading c.decode (entries.map (·.2))) := by
  refine ⟨view.table.isRange, Collection.reads_reading, ?octets, ?records, ?whole⟩
  case octets =>
    intro first last entries
    refine ⟨view.presents_rangeBytes first last, fun visit state => ⟨fun inverted => ?_, ?_⟩⟩
    · simp only [Snapshot.rangeBytes, Table.valuesIn, OrderedMap.range_of_lt inverted]
      rfl
    · exact fun s current => Store.rangeBytes_of_snapshot current first last visit state
  case records =>
    intro c first last entries
    refine ⟨view.presents_rangeRecords c first last, fun visit state s current => ?_⟩
    exact Store.range_of_snapshot current c first last visit state
  case whole =>
    intro c entries
    exact ⟨view.presents_rangeBytes c.least c.boundary,
      view.presents_decoding c c.least c.boundary⟩

/-- Of three values between two keys the second holds no record. A visitor that never stops sees the
first and meets the fault; one that has had enough of the first does not come to it. -/
theorem scans_end_at_damage :
    let s := ((Session.start "/data" 100).run
      [.put .inode { number := 1 }, .putBytes (Key.of .inode 2) [0xFF],
        .put .inode { number := 3 }]).1.store
    let view : Snapshot := ⟨s.directory, s.committed⟩
    let collect (answer : Verdict (ScanFault Empty)) :
        Scan.Visitor (List Inode) Inode (ScanFault Empty) := fun seen i => (seen ++ [i], answer)
    s.snapshot = .ok view ∧
      s.range .inode 1 none (collect .more) [] =
        ([{ number := 1 }], some (.store (.decode .inode .endOfInput))) ∧
      view.scan .inode (collect .enough) [] = ([{ number := 1 }], none) := by
  intro s view collect
  have current : s.snapshot = .ok view := rfl
  obtain ⟨-, -, -, records, whole⟩ := scans_end_as_answered (ε := Empty) view
  refine ⟨current, ?_, ?_⟩
  · obtain ⟨presents, alike⟩ := records .inode 1 none
    obtain ⟨called, result, ends, scanned, -⟩ := presents (collect .more) []
    obtain ⟨rfl, rfl⟩ := ends.unique (.whole fun _ _ _ _ => rfl)
    refine ((alike (collect .more) [] s current).trans scanned).trans ?_
    decide +kernel
  · obtain ⟨called, result, ends, scanned, -⟩ := (whole .inode).2 (collect .enough) []
    have readable : (Offer.reading Collection.inode.decode
        ((view.table.range Collection.inode.least Collection.inode.boundary).map (·.2))).items =
          [{ number := 1 }] := by decide +kernel
    obtain ⟨rfl, rfl⟩ := ends.unique (.enough [] _ [] readable Scan.asksOn_nil rfl)
    exact scanned

end FileCatalog
