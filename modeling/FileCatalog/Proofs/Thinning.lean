import FileCatalog.Proofs.Write

/-!
# Tables with fewer empty values

An empty value counts as absent where it is asked whether a key is occupied, and a record that is
looked for under it is missing. A table thins into another when that one lacks some of its empty
values and is the same otherwise (`Table.Thins`). Whoever works with the keys of a store one by one
never learns which of the two is there: `Session.Thins.run` says that sessions whose tables thin
answer alike in every run of such operations (`Step.isPointwise`), and stay alike.

Counts and scans are none of them; they go over what is stored, whatever it is.
-/

namespace FileCatalog

namespace Table

/-! ## Tables with fewer empty values -/

/-- The second table is the first without some of its empty values. -/
def Thins (t t' : Table) : Prop :=
  ∀ key, t'.get? key = t.get? key ∨
    key ≠ Key.applyIndex ∧ t.get? key = some [] ∧ t'.get? key = none

/-- The table without those of its empty values whose keys are chosen. -/
def prune (chosen : Bytes → Bool) (t : Table) : Table where
  entries := t.entries.filter fun e => !(chosen e.1 && e.2.isEmpty)
  ascending := t.ascending.filter _

/-- Pruning keeps every entry but those under a chosen key with an empty value. -/
theorem mem_prune {chosen : Bytes → Bool} {t : Table} {e : Bytes × Bytes} :
    e ∈ (t.prune chosen).entries ↔ e ∈ t.entries ∧ ¬ (chosen e.1 = true ∧ e.2 = []) := by
  rw [prune, List.mem_filter]
  cases chosen e.1 with
  | true => simp
  | false => simp

/-- In any range the chosen empty values are missing, and nothing else. -/
theorem range_prune (chosen : Bytes → Bool) (t : Table) (first last : Bytes) :
    (t.prune chosen).range first last =
      (t.range first last).filter fun e => ¬ (chosen e.1 = true ∧ e.2 = []) := by
  rw [OrderedMap.range, OrderedMap.range, prune, List.filter_filter, List.filter_filter]
  refine List.filter_congr fun e _ => ?_
  obtain ⟨key, value⟩ := e
  cases value with
  | nil => simp [Bool.and_comm]
  | cons b rest => simp

/-- A pruned table is a thinning of the table, as long as the log position is not chosen. -/
theorem thins_prune {chosen : Bytes → Bool} (data : chosen Key.applyIndex = false) (t : Table) :
    t.Thins (t.prune chosen) := by
  intro key
  cases found : t.get? key with
  | none =>
    left
    rw [OrderedMap.get?_eq_none_iff] at found ⊢
    intro value kept
    exact found value (mem_prune.mp kept).1
  | some value =>
    have entry := OrderedMap.get?_eq_some_iff.mp found
    by_cases dropped : chosen key = true ∧ value = []
    · obtain ⟨picked, rfl⟩ := dropped
      refine Or.inr ⟨?_, rfl, ?_⟩
      · rintro rfl
        rw [data] at picked
        cases picked
      · rw [OrderedMap.get?_eq_none_iff]
        intro value kept
        obtain ⟨other, whole⟩ := mem_prune.mp kept
        have same := OrderedMap.get?_eq_some_iff.mpr other
        rw [found, Option.some.injEq] at same
        exact whole ⟨picked, same.symm⟩
    · left
      exact OrderedMap.get?_eq_some_iff.mpr (mem_prune.mpr ⟨entry, dropped⟩)

namespace Thins

variable {t t' : Table}

/-- A key is occupied in a thinning exactly where it is in the whole table. -/
theorem occupied (h : t.Thins t') (key : Bytes) :
    Store.occupied (t'.get? key) = Store.occupied (t.get? key) := by
  rcases h key with same | ⟨-, before, after⟩
  · rw [same]
  · rw [before, after]
    rfl

/-- A thinning is at the same log position. -/
theorem applyIndex (h : t.Thins t') : t'.applyIndex = t.applyIndex := by
  unfold Table.applyIndex
  rcases h Key.applyIndex with same | ⟨data, -⟩
  · rw [same]
  · exact absurd rfl data

/-- A change makes the same of both: its own key is settled by it. -/
theorem record (h : t.Thins t') (c : Change) (position : UInt64) :
    (c.record position t).Thins (c.record position t') := by
  intro key
  by_cases index : key = Key.applyIndex
  · left
    rw [index, Change.record, Change.record, OrderedMap.get?_insert_self,
      OrderedMap.get?_insert_self]
  · by_cases own : key = c.key
    · left
      subst own
      rw [Change.get?_record_self index, Change.get?_record_self index]
    · rw [Change.get?_record_of_ne index own, Change.get?_record_of_ne index own]
      exact h key

end Thins

end Table

/-! ## Stores and sessions -/

/-- The stores are the same but for their tables, which thin. -/
inductive Store.Thins (s : Store) : Store → Prop
  | mk {committed durable : Table} (now : s.committed.Thins committed)
    (files : s.durable.Thins durable) : Thins s { s with committed, durable }

namespace Store.Thins

variable {s s' : Store}

theorem committed (h : s.Thins s') : s.committed.Thins s'.committed := by
  cases h with | mk now files => exact now

theorem durable (h : s.Thins s') : s.durable.Thins s'.durable := by
  cases h with | mk now files => exact files

/-- Of a store and its thinning both are released, or neither is. -/
theorem isClosed (h : s.Thins s') : s'.isClosed = s.isClosed := by
  cases h with | mk now files => rfl

/-- Released together, they stay in step. -/
theorem release (h : s.Thins s') : s.release.Thins s'.release := by
  unfold Store.release
  rw [h.isClosed]
  cases h with
  | mk now files =>
    split
    · exact .mk now files
    · exact .mk now now

theorem flushed (h : s.Thins s') :
    Thins { s with durable := s.committed, unsynced := 0 }
      { s' with durable := s'.committed, unsynced := 0 } := by
  cases h with | mk now files => exact .mk now now

/-- Announcing one position to both keeps them in step. -/
theorem setApplyIndex (h : s.Thins s') (position : UInt64) :
    (s.setApplyIndex position).Thins (s'.setApplyIndex position) := by
  cases h with | mk now files => exact .mk now files

/-- One change committed in both keeps them in step: the buffer counts the same payload, so both
make it durable or neither does. -/
theorem perform (h : s.Thins s') (c : Change) : (s.perform c).Thins (s'.perform c) := by
  cases h with
  | mk now files =>
    have after := now.record c s.applyIndex
    simp only [Store.perform, Store.commit]
    split
    · exact .mk after after
    · exact .mk after files

/-- An opening goes by the log position alone. -/
theorem load {t t' : Table} (h : t.Thins t') (directory : String) (w : UInt64) :
    (∃ e, Store.load directory t w = .error e ∧ Store.load directory t' w = .error e) ∨
      ∃ s s', Store.load directory t w = .ok s ∧ Store.load directory t' w = .ok s' ∧
        s.Thins s' := by
  unfold Store.load
  rw [h.applyIndex]
  cases t.applyIndex with
  | error e => exact Or.inl ⟨_, rfl, rfl⟩
  | ok position => exact Or.inr ⟨_, _, rfl, rfl, .mk h h⟩

/-- `hasKey` answers alike: an empty value is no key to it. -/
theorem hasKey (h : s.Thins s') (key : Bytes) : s'.hasKey key = s.hasKey key := by
  cases released : s.isClosed with
  | true =>
    rw [hasKey_of_released released, hasKey_of_released (h.isClosed.trans released)]
  | false =>
    rw [hasKey_of_inUse released, hasKey_of_inUse (h.isClosed.trans released),
      h.committed.occupied key]

/-- A record is read alike: an empty value is a missing record to `get`. -/
theorem get (h : s.Thins s') (c : Collection) (id : c.Identity) : s'.get c id = s.get c id := by
  unfold Store.get Store.getBytes
  cases released : s.isClosed with
  | true =>
    rw [table_of_released released, table_of_released (h.isClosed.trans released)]
  | false =>
    rw [table_of_inUse released, table_of_inUse (h.isClosed.trans released)]
    simp only [bind, Except.bind, pure, Except.pure]
    rcases h.committed (Key.of c id) with same | ⟨-, before, after⟩
    · rw [same]
    · rw [before, after]
      rfl

/-- The log position is read back alike. -/
theorem persistedIndex (h : s.Thins s') : s'.persistedIndex = s.persistedIndex := by
  unfold Store.persistedIndex Store.table
  rw [h.isClosed]
  split
  · rfl
  · exact h.committed.applyIndex

end Store.Thins

/-- The operation asks for keys one by one, and of a value no more than its record. -/
def Step.isPointwise : Step → Bool
  | .getBytes .. | .count .. | .takeSnapshot .. | .poke .. | .scan .. => false
  | _ => true

/-- A write is refused by a table exactly where it is by a thinning of it, and with the same reply.
-/
theorem Write.refusal?_of_thins {t t' : Table} (h : t.Thins t') (w : Write) :
    w.refusal? t' = w.refusal? t := by
  cases w with
  | putBytes | deleteBytes | put | delete => rfl
  | putBytesIfAbsent | create => simp only [refusal?, h.occupied]

/-- The sessions are the same but for the tables of their stores, which thin, and for what the files
of directories left behind hold. -/
inductive Session.Thins (s : Session) : Session → Prop
  | mk {store : Store} (left : List (String × Table)) (stores : s.store.Thins store) :
    Thins s { s with store, left }

namespace Session

/-- The session with chosen empty values taken out of the tables of its store. -/
def prune (chosen : Bytes → Bool) (s : Session) : Session :=
  { s with store :=
    { s.store with
      committed := s.store.committed.prune chosen
      durable := s.store.durable.prune chosen } }

/-- A session over pruned tables is a thinning of the session. -/
theorem thins_prune {chosen : Bytes → Bool} (data : chosen Key.applyIndex = false) (s : Session) :
    s.Thins (s.prune chosen) :=
  .mk s.left (.mk (s.store.committed.thins_prune data) (s.store.durable.thins_prune data))

namespace Thins

variable {s s' : Session}

/-- The live stores are in step. -/
theorem store (h : s.Thins s') : s.store.Thins s'.store := by
  cases h with | mk left stores => exact stores

/-- The store's own state is told alike. -/
theorem status (h : s.Thins s') : s'.status = s.status := by
  unfold Session.status
  rw [h.store.persistedIndex]
  cases h with | mk left stores => cases stores with | mk now files => rfl

theorem isLocked (h : s.Thins s') : s'.isLocked = s.isLocked := by
  cases h with | mk left stores => cases stores with | mk now files => rfl

/-- With stores that thin in place of its own, a session is as it was before. -/
theorem withStore (h : s.Thins s') {store store' : Store} (stores : store.Thins store') :
    Thins { s with store := store } { s' with store := store' } := by
  cases h with | mk left => exact .mk left stores

/-- A write is answered alike and leaves the sessions in step, accepted or refused. -/
private theorem write (h : s.Thins s') (w : Write) :
    (s'.step w.step).2 = (s.step w.step).2 ∧ (s.step w.step).1.Thins (s'.step w.step).1 := by
  cases released : s.store.isClosed with
  | true =>
    rw [step_write_released released, step_write_released (h.store.isClosed.trans released)]
    exact ⟨rfl, h⟩
  | false =>
    rw [step_write released, step_write (h.store.isClosed.trans released),
      w.refusal?_of_thins h.store.committed]
    cases w.refusal? s.store.committed with
    | some reply => exact ⟨rfl, h⟩
    | none => exact ⟨rfl, h.withStore (h.store.perform w.change)⟩

/-- A flush is answered alike and leaves the sessions in step. -/
private theorem flush (h : s.Thins s') :
    (s'.step .flush).2 = (s.step .flush).2 ∧ (s.step .flush).1.Thins (s'.step .flush).1 := by
  rw [Session.step, Session.step]
  cases released : s.store.isClosed with
  | true =>
    rw [Store.flush_of_released released,
      Store.flush_of_released (h.store.isClosed.trans released)]
    exact ⟨rfl, h⟩
  | false =>
    rw [Store.flush_of_inUse released, Store.flush_of_inUse (h.store.isClosed.trans released)]
    exact ⟨rfl, h.withStore h.store.flushed⟩

/-- An opening succeeds or fails alike: the position that it loads stands in both tables. -/
private theorem reopen (h : s.Thins s') (writeBuffer : Option UInt64) :
    (s'.reopen writeBuffer).2 = (s.reopen writeBuffer).2 ∧
      (s.reopen writeBuffer).1.Thins (s'.reopen writeBuffer).1 := by
  have same : s'.store.directory = s.store.directory ∧ s'.writeBuffer = s.writeBuffer := by
    cases h with | mk left stores => cases stores with | mk now files => exact ⟨rfl, rfl⟩
  unfold Session.reopen
  rw [h.isLocked, same.1, same.2]
  cases s.isLocked with
  | true => exact ⟨rfl, h⟩
  | false =>
    simp only [Bool.false_eq_true, if_false]
    rcases Store.Thins.load h.store.durable s.store.directory (writeBuffer.getD s.writeBuffer) with
      ⟨e, refused, refused'⟩ | ⟨store, store', loaded, loaded', stores⟩
    · simp only [refused, refused']
      exact ⟨trivial, h⟩
    · simp only [loaded, loaded']
      have after := h.withStore stores
      rw [same.2] at after
      exact ⟨congrArg Reply.status after.status, after⟩

/-- A crash is answered alike, and what was durable in each stays in step. -/
private theorem crash (h : s.Thins s') :
    s'.crash.2 = s.crash.2 ∧ s.crash.1.Thins s'.crash.1 := by
  cases h with
  | mk left stores =>
    unfold Session.crash
    rcases Store.Thins.load stores.durable s!"{s.base}/crash{s.crashes + 1}" s.writeBuffer with
      ⟨e, refused, refused'⟩ | ⟨opened, opened', loaded, loaded', thins⟩
    · simp only [refused, refused']
      exact ⟨trivial, .mk _ stores.release⟩
    · simp only [loaded, loaded']
      have after : Thins { s with store := opened, crashes := s.crashes + 1 }
          { s with store := opened', crashes := s.crashes + 1 } := .mk s.left thins
      exact ⟨congrArg Reply.status after.status, .mk _ thins⟩

/-- A pointwise operation answers alike, and leaves sessions whose tables thin. -/
theorem step (h : s.Thins s') {st : Step} (pointwise : st.isPointwise = true) :
    (s'.step st).2 = (s.step st).2 ∧ (s.step st).1.Thins (s'.step st).1 := by
  cases st with
  | getBytes | count | takeSnapshot | poke | scan => cases pointwise
  | putBytes key value => exact h.write (.putBytes key value)
  | putBytesIfAbsent key value => exact h.write (.putBytesIfAbsent key value)
  | deleteBytes key => exact h.write (.deleteBytes key)
  | put c r => exact h.write (.put c r)
  | create c r => exact h.write (.create c r)
  | delete c id => exact h.write (.delete c id)
  | setApplyIndex position => exact ⟨rfl, h.withStore (h.store.setApplyIndex position)⟩
  | status => exact ⟨congrArg Reply.status h.status, h⟩
  | flush => exact h.flush
  | release => exact ⟨rfl, h.withStore h.store.release⟩
  | reopen writeBuffer => exact h.reopen writeBuffer
  | crash => exact h.crash
  | hasKey key => exact ⟨congrArg (Reply.ofExcept .flag) (h.store.hasKey key), h⟩
  | contains c id => exact ⟨congrArg (Reply.ofExcept .flag) (h.store.hasKey (Key.of c id)), h⟩
  | get c id => exact ⟨congrArg (Reply.ofExcept (.record c)) (h.store.get c id), h⟩
  | closeSnapshot name =>
    cases h with
    | mk left stores =>
      simp only [Session.step, snapshot?]
      cases s.snapshots.lookup name with
      | none => exact ⟨rfl, .mk left stores⟩
      | some view => exact ⟨rfl, .mk left stores⟩
  | snapshotGet name | snapshotApplyIndex name | snapshotCount name =>
    cases h with
    | mk left stores =>
      simp only [Session.step, askSnapshot, snapshot?]
      cases s.snapshots.lookup name with
      | none => exact ⟨rfl, .mk left stores⟩
      | some view => exact ⟨rfl, .mk left stores⟩

/-- Steps that go by single keys are answered alike, one after another. -/
theorem run (h : s.Thins s') {steps : List Step}
    (pointwise : ∀ st ∈ steps, st.isPointwise = true) :
    (s'.run steps).2 = (s.run steps).2 ∧ (s.run steps).1.Thins (s'.run steps).1 := by
  induction steps generalizing s s' with
  | nil => exact ⟨rfl, h⟩
  | cons st rest ih =>
    obtain ⟨answer, next⟩ := h.step (pointwise st List.mem_cons_self)
    obtain ⟨answers, last⟩ := ih next fun st' hst => pointwise st' (List.mem_cons_of_mem _ hst)
    refine ⟨?_, last⟩
    show (s'.step st).2 :: ((s'.step st).1.run rest).2 = (s.step st).2 :: ((s.step st).1.run rest).2
    rw [answer, answers]

end Thins

end Session

end FileCatalog
