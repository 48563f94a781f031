import FileCatalog.Proofs.Catalog
import FileCatalog.Proofs.Scan

/-!
# Sessions refine catalogs

A session represents a catalog when its committed table holds the records of the catalog and both
are closed or neither is. `Represents.perform` goes through the operations once: each answers as the
catalog answers, and leaves a session that represents what it leaves of the catalog. Openings
succeed on every closed store, since nothing else holds the directory and the log position in the
table can be read.

`records_refine_finite_maps` says the same of runs from a store that holds nothing.
-/

namespace FileCatalog

/-- The reply says that the octets under a key are no record. -/
def Reply.isUnreadable : Reply → Bool
  | .failed (.decode ..) => true
  | _ => false

namespace Catalog

/-- A record is refused for its fields exactly as it is for the octets of its key. -/
theorem checkRecord_eq (c : Collection) (r : c.Record) :
    Store.checkRecord c r =
      match fault? c r with
      | some e => .error e
      | none => .ok () := by
  cases c with
  | inode | attributes => rfl
  | dentry =>
    simp only [Store.checkRecord, Key.check, Key.checkName, fault?, Utf8.zero_mem_encode]
    by_cases zero : Char.ofNat 0 ∈ r.name.toList
    · simp only [zero, if_true]
    · simp only [zero, if_false]
  | upload =>
    simp only [Store.checkRecord, Key.check, Key.checkObjectKey, fault?]
    have bound : (Utf8.encode r.key).length ≤ Key.longestObjectKey ↔
        ¬ UInt32.size ≤ (Utf8.encode r.key).length := by
      rw [Key.longestObjectKey, UInt32.size]
      omega
    by_cases long : UInt32.size ≤ (Utf8.encode r.key).length
    · simp only [bound, long, not_true_eq_false, if_false, if_true]
    · simp only [bound, long, not_false_eq_true, if_true, if_false]

/-- A record that the catalog accepts has a proper identity. -/
theorem isProper_of_fault? {c : Collection} {r : c.Record} (accepted : fault? c r = none) :
    Key.IsProper c (c.identity r) := by
  have checked := checkRecord_eq c r
  rw [accepted, Store.checkRecord] at checked
  split at checked
  · next ok => exact Key.isProper_of_check ok
  · cases checked

/-- A refusal of a record is no complaint about unreadable octets. -/
theorem fault?_readable {c : Collection} {r : c.Record} {e : StoreError}
    (refused : fault? c r = some e) : (Reply.failed e).isUnreadable = false := by
  cases c with
  | inode | attributes => cases refused
  | dentry | upload =>
    simp only [fault?] at refused
    split at refused
    · cases refused
      rfl
    · cases refused

/-- The session keeps the records of the catalog, and is closed when the catalog is. -/
structure Represents (cat : Catalog) (s : Session) : Prop where
  held : cat.records.HeldBy s.store.committed
  isClosed : s.store.isClosed = cat.isClosed
  settled : s.store.isClosed = true → s.store.durable = s.store.committed
  readable : ∃ position, s.store.committed.applyIndex = .ok position
  snapshots : s.snapshots = []
  scanning : s.scanning = []

/-- The reply is the answer of the catalog, where it has one, and never that octets are no
record. -/
def Agrees (answer : Option Reply) (reply : Reply) : Prop :=
  (∀ a, answer = some a → reply = a) ∧ reply.isUnreadable = false

/-- An answer agrees with itself, unless it tells of unreadable octets. -/
theorem Agrees.same {reply : Reply} (readable : reply.isUnreadable = false) :
    Agrees (some reply) reply :=
  ⟨fun _ same => Option.some.inj same, readable⟩

/-- Where the catalog says nothing, any answer agrees that does not tell of unreadable octets. -/
theorem Agrees.opening {reply : Reply} (readable : reply.isUnreadable = false) :
    Agrees none reply := by
  refine ⟨fun a same => ?_, readable⟩
  cases same

/-- What both answer of one catalog agrees. -/
theorem Agrees.ask {cat : Catalog} {answer reply : Reply} (same : reply = cat.ask answer)
    (readable : answer.isUnreadable = false) : Agrees (cat.ask answer) reply := by
  rw [same]
  refine .same ?_
  unfold Catalog.ask
  split
  · rfl
  · exact readable

/-- The empty catalog represents a session that has just started. -/
theorem represents_start (base : String) (writeBuffer : UInt64) :
    empty.Represents (.start base writeBuffer) where
  held := Records.heldBy_empty
  isClosed := rfl
  settled := fun closed => Bool.noConfusion closed
  readable := ⟨0, rfl⟩
  snapshots := rfl
  scanning := rfl

namespace Represents

variable {cat : Catalog} {s : Session}

/-! ## Reading -/

/-- `get` answers with the record of the map, or that none is there. -/
theorem get (h : cat.Represents s) {c : Collection} {id : c.Identity}
    (proper : Key.IsProper c id) : Agrees (cat.perform (.get c id)).2 (s.step (.get c id)).2 := by
  have reply : (s.step (.get c id)).2 =
      cat.ask (recordUnder c id ((cat.records c).lookup id)) := by
    simp only [Session.step, ask]
    cases closed : cat.isClosed with
    | true =>
      simp only [Store.get, Store.getBytes, Store.table_of_released (h.isClosed.trans closed)]
      rfl
    | false =>
      rw [h.held.get (h.isClosed.trans closed) proper]
      cases (cat.records c).lookup id <;> rfl
  refine .ask reply ?_
  cases (cat.records c).lookup id <;> rfl

/-- `contains` answers whether the map has a record. -/
theorem contains (h : cat.Represents s) {c : Collection} {id : c.Identity}
    (proper : Key.IsProper c id) :
    Agrees (cat.perform (.contains c id)).2 (s.step (.contains c id)).2 := by
  have reply : (s.step (.contains c id)).2 =
      cat.ask (.flag ((cat.records c).lookup id).isSome) := by
    simp only [Session.step, Store.contains, ask]
    cases closed : cat.isClosed with
    | true =>
      rw [Store.hasKey_of_released (h.isClosed.trans closed)]
      rfl
    | false =>
      rw [Store.hasKey_of_inUse (h.isClosed.trans closed), h.held.occupied_eq proper]
      rfl
  exact .ask reply rfl

/-- `count` answers with the size of the map. -/
theorem count (h : cat.Represents s) (c : Collection) :
    Agrees (cat.perform (.count c)).2 (s.step (.count c)).2 := by
  have reply : (s.step (.count c)).2 = cat.ask (.number (cat.records c).keys.card) := by
    simp only [Session.step, Store.count, ask]
    cases closed : cat.isClosed with
    | true =>
      rw [Store.snapshot_of_released (h.isClosed.trans closed)]
      rfl
    | false =>
      rw [Store.snapshot_of_inUse (h.isClosed.trans closed), ← h.held.length_range c]
      simp only [bind, Except.bind, Snapshot.count_eq]
      rfl
  exact .ask reply rfl

/-! ## Writing -/

/-- What a session represents after its store has committed what is under an identity. -/
private theorem set (h : cat.Represents s) (inUse : s.store.isClosed = false) {c : Collection}
    {id : c.Identity} {r? : Option c.Record} (proper : Key.IsProper c id)
    (fits : ∀ r, r? = some r → c.Fits r) (reply : Reply) :
    Represents { cat with records := cat.records.set c id r? }
      (s.withStore (s.store.perform ⟨Key.of c id, r?.map c.encode⟩) reply).1 where
  held := by
    simp only [Session.withStore, Store.perform_committed]
    exact h.held.set proper fits s.store.applyIndex
  isClosed := by simpa only [Session.withStore, Store.perform_isClosed] using h.isClosed
  settled closed := by
    simp only [Session.withStore, Store.perform_isClosed, inUse] at closed
    cases closed
  readable := ⟨s.store.applyIndex, by simp only [Session.withStore, Store.perform_committed,
    Change.applyIndex_record]⟩
  snapshots := h.snapshots
  scanning := h.scanning

/-- A write that the table accepts does to the octets what it does to the map, for a record that
fits its layout. -/
private theorem write (h : cat.Represents s) {w : Write} {c : Collection} {id : c.Identity}
    {r? : Option c.Record} (change : w.change = ⟨Key.of c id, r?.map c.encode⟩)
    (success : w.success = .done) (accepted : w.refusal? s.store.committed = none)
    (closedError : w.closedError = .closed) (proper : Key.IsProper c id)
    (fits : ∀ r, r? = some r → c.Fits r) :
    (cat.write c id r?).1.Represents (s.step w.step).1 ∧
      Agrees (some (cat.write c id r?).2) (s.step w.step).2 := by
  unfold Catalog.write
  cases closed : cat.isClosed with
  | true =>
    rw [Session.step_write_released (h.isClosed.trans closed), closedError]
    exact ⟨h, .same rfl⟩
  | false =>
    have inUse := h.isClosed.trans closed
    have written := h.set inUse proper fits .done
    rw [closed] at written
    rw [Session.step_write inUse, accepted, change, success]
    exact ⟨written, .same rfl⟩

/-- A record with a fault is refused, by a store in use and by a released one. -/
private theorem refused (h : cat.Represents s) {w : Write} {c : Collection} {r : c.Record}
    (written : w = .put c r ∨ w = .create c r) {e : StoreError} (fault : fault? c r = some e) :
    cat.Represents (s.step w.step).1 ∧ Agrees (some (.failed e)) (s.step w.step).2 := by
  have checked := checkRecord_eq c r
  rw [fault] at checked
  have same : Agrees (some (.failed e)) (.failed e) := .same (fault?_readable fault)
  cases closed : s.store.isClosed with
  | true =>
    have closedError : w.closedError = e := by
      rcases written with rfl | rfl <;> simp only [Write.closedError, checked]
    rw [Session.step_write_released closed, closedError]
    exact ⟨h, same⟩
  | false =>
    have refusal : w.refusal? s.store.committed = some (.failed e) := by
      rcases written with rfl | rfl <;> simp only [Write.refusal?, checked]
    rw [Session.step_write closed, refusal]
    exact ⟨h, same⟩

/-- `put` refines the update of the map, and refuses the same records. -/
theorem put (h : cat.Represents s) {c : Collection} {r : c.Record} (fits : c.Fits r) :
    (cat.perform (.put c r)).1.Represents (s.step (.put c r)).1 ∧
      Agrees (cat.perform (.put c r)).2 (s.step (.put c r)).2 := by
  simp only [perform]
  cases fault : fault? c r with
  | some e => exact h.refused (Or.inl rfl) fault
  | none =>
    have checked := checkRecord_eq c r
    rw [fault] at checked
    refine h.write (w := .put c r) rfl rfl ?_ ?_ (isProper_of_fault? fault) fun r' same => ?_
    · simp only [Write.refusal?, checked]
    · simp only [Write.closedError, checked]
    · cases same
      exact fits

/-- `create` refines the insertion of a new record, and refuses those that are there already. -/
theorem create (h : cat.Represents s) {c : Collection} {r : c.Record} (fits : c.Fits r) :
    (cat.perform (.create c r)).1.Represents (s.step (.create c r)).1 ∧
      Agrees (cat.perform (.create c r)).2 (s.step (.create c r)).2 := by
  simp only [perform]
  cases fault : fault? c r with
  | some e => exact h.refused (Or.inr rfl) fault
  | none =>
    have checked := checkRecord_eq c r
    rw [fault] at checked
    have proper := isProper_of_fault? fault
    have closedError : (Write.create c r).closedError = .closed := by
      simp only [Write.closedError, checked]
    have occupied := h.held.occupied_eq proper
    -- The store asks for a value under the key, the catalog for a record of the identity.
    by_cases member : c.identity r ∈ cat.records c
    · rw [Finmap.lookup_isSome.mpr member] at occupied
      have refusal : (Write.create c r).refusal? s.store.committed =
          some (.failed (.taken c (Key.ofRecord c r))) := by
        simp only [Write.refusal?, checked, Key.ofRecord, occupied, if_true]
      rw [if_pos member]
      cases closed : cat.isClosed with
      | true =>
        have step := Session.step_write_released (h.isClosed.trans closed) (.create c r)
        rw [closedError] at step
        rw [show s.step (.create c r) = _ from step]
        exact ⟨h, .ask (by simp only [ask, closed, if_true]) rfl⟩
      | false =>
        have step := Session.step_write (h.isClosed.trans closed) (.create c r)
        rw [refusal] at step
        rw [show s.step (.create c r) = _ from step]
        exact ⟨h, .ask (by simp only [ask, closed]; rfl) rfl⟩
    · have free : ((cat.records c).lookup (c.identity r)).isSome = false := by
        rw [Finmap.lookup_eq_none.mpr member]
        rfl
      rw [free] at occupied
      rw [if_neg member]
      refine h.write (w := .create c r) rfl rfl ?_ closedError proper fun r' same => ?_
      · simp only [Write.refusal?, checked, Key.ofRecord, occupied]
        rfl
      · cases same
        exact fits

/-- `delete` refines the removal from the map. -/
theorem delete (h : cat.Represents s) {c : Collection} {id : c.Identity}
    (proper : Key.IsProper c id) :
    (cat.perform (.delete c id)).1.Represents (s.step (.delete c id)).1 ∧
      Agrees (cat.perform (.delete c id)).2 (s.step (.delete c id)).2 := by
  have change : (Write.delete c id).change =
      ⟨Key.of c id, (none : Option c.Record).map c.encode⟩ := rfl
  refine h.write change rfl rfl rfl proper fun r same => ?_
  cases same

/-! ## The store as a whole -/

/-- A flush leaves the catalog as it is. -/
theorem flush (h : cat.Represents s) :
    cat.Represents (s.step .flush).1 ∧ Agrees (cat.ask .done) (s.step .flush).2 := by
  cases closed : cat.isClosed with
  | true =>
    simp only [Session.step, Store.flush_of_released (h.isClosed.trans closed)]
    exact ⟨h, .ask (by simp only [ask, closed, if_true]; rfl) rfl⟩
  | false =>
    simp only [Session.step, Store.flush_of_inUse (h.isClosed.trans closed)]
    refine ⟨?_, .ask (by simp only [ask, closed]; rfl) rfl⟩
    exact ⟨h.held, h.isClosed, fun _ => rfl, h.readable, h.snapshots, h.scanning⟩

/-- A released session represents the catalog closed. -/
theorem release (h : cat.Represents s) :
    Represents { cat with isClosed := true } (s.step .release).1 := by
  simp only [Session.step, Session.withStore, Store.release]
  by_cases closed : s.store.isClosed = true
  · rw [if_pos closed]
    exact ⟨h.held, closed, h.settled, h.readable, h.snapshots, h.scanning⟩
  · rw [if_neg closed]
    exact ⟨h.held, rfl, fun _ => rfl, h.readable, h.snapshots, h.scanning⟩

/-- A closed store can be opened: nothing else holds its directory, and all of it is durable. -/
theorem reopen (h : cat.Represents s) (writeBuffer : Option UInt64) :
    Represents { cat with isClosed := false } (s.step (.reopen writeBuffer)).1 ∧
      Agrees none (s.step (.reopen writeBuffer)).2 := by
  have locked : s.isLocked = !s.store.isClosed := by
    simp [Session.isLocked, h.snapshots, h.scanning]
  rw [Session.step, Session.reopen, locked]
  cases closed : s.store.isClosed with
  | false =>
    exact ⟨⟨h.held, closed, h.settled, h.readable, h.snapshots, h.scanning⟩, .opening rfl⟩
  | true =>
    obtain ⟨position, readable⟩ := h.readable
    have loaded : Store.load s.store.directory s.store.durable (writeBuffer.getD s.writeBuffer) =
        .ok _ := Store.load_eq_ok_iff.mpr ⟨position, h.settled closed ▸ readable, rfl⟩
    simp only [Bool.not_true, Bool.false_eq_true, if_false, loaded]
    rw [← h.settled closed] at readable
    have held := h.held
    rw [← h.settled closed] at held
    have inUse : false = true → s.store.durable = s.store.durable := fun _ => rfl
    exact ⟨⟨held, rfl, inUse, ⟨position, readable⟩, h.snapshots, h.scanning⟩, .opening rfl⟩

/-- Every operation answers as the catalog answers, and leaves what the catalog leaves. -/
theorem perform (h : cat.Represents s) {op : Operation} (bounded : op.IsBounded) :
    (cat.perform op).1.Represents (s.step op.step).1 ∧
      Agrees (cat.perform op).2 (s.step op.step).2 := by
  cases op with
  | get c id => exact ⟨h, h.get bounded⟩
  | contains c id => exact ⟨h, h.contains bounded⟩
  | count c => exact ⟨h, h.count c⟩
  | put c r => exact h.put bounded
  | create c r => exact h.create bounded
  | delete c id => exact h.delete bounded
  | setApplyIndex index =>
    exact ⟨⟨h.held, h.isClosed, h.settled, h.readable, h.snapshots, h.scanning⟩, .same rfl⟩
  | flush => exact h.flush
  | release => exact ⟨h.release, .same rfl⟩
  | reopen writeBuffer => exact h.reopen writeBuffer

/-- Bounded operations, run one after another, keep the sessions in step and agree on every answer.
-/
theorem run (h : cat.Represents s) {ops : List Operation} (bounded : ∀ op ∈ ops, op.IsBounded) :
    (cat.run ops).1.Represents (s.run (ops.map Operation.step)).1 ∧
      List.Forall₂ Agrees (cat.run ops).2 (s.run (ops.map Operation.step)).2 := by
  induction ops generalizing cat s with
  | nil => exact ⟨h, .nil⟩
  | cons op rest ih =>
    obtain ⟨next, answer⟩ := h.perform (bounded op List.mem_cons_self)
    obtain ⟨last, answers⟩ := ih next fun op' hop => bounded op' (List.mem_cons_of_mem _ hop)
    exact ⟨last, .cons answer answers⟩

end Represents

end Catalog

/-- **Records are four finite maps.** In every run of operations on records, from a store that holds
nothing, every answer is the one that four finite maps give, no answer is a fault of octets that are
no record, and in the end the session represents the maps. -/
theorem records_refine_finite_maps (base : String) (writeBuffer : UInt64)
    {ops : List Catalog.Operation} (bounded : ∀ op ∈ ops, op.IsBounded) :
    let ran := (Session.start base writeBuffer).run (ops.map Catalog.Operation.step)
    List.Forall₂ Catalog.Agrees (Catalog.empty.run ops).2 ran.2 ∧
      (Catalog.empty.run ops).1.Represents ran.1 := by
  obtain ⟨last, answers⟩ := (Catalog.represents_start base writeBuffer).run bounded
  exact ⟨answers, last⟩

/-- A name that is taken, across a release. -/
theorem records_refine_taken_name :
    let ops : List Catalog.Operation :=
      [.put .dentry ⟨7, "a", 8, 0⟩, .create .dentry ⟨7, "a", 9, 0⟩, .release, .reopen none,
        .get .dentry ⟨7, "a"⟩, .delete .upload ⟨"k", "u"⟩, .count .dentry]
    (∀ op ∈ ops, op.IsBounded) ∧
      List.Forall₂ Catalog.Agrees (Catalog.empty.run ops).2
        ((Session.start "/data" 0).run (ops.map Catalog.Operation.step)).2 := by
  intro ops
  have name : Text.Fits "a" := by
    show (Utf8.encode "a").length < UInt64.size
    decide
  have object : (Utf8.encode "k").length ≤ Key.longestObjectKey := by decide
  have bounded : ∀ op ∈ ops, op.IsBounded := by
    simp [ops, Catalog.Operation.IsBounded, Collection.Fits, Key.IsProper, name, object]
  exact ⟨bounded, (records_refine_finite_maps "/data" 0 bounded).1⟩

end FileCatalog
