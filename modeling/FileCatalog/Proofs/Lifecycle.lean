import FileCatalog.Proofs.Position
import FileCatalog.Proofs.Refinement

/-!
# Release and opening

A release ends the use of a store until the directory is opened again. In between the store rests:
`release_rests_until_opened` says that nothing but the announced log position moves, whatever is
asked (`Turns.rests`), that every operation that needs the table is refused
(`Session.step_refused`), and that snapshots answer on. A record that has no key of its own is
refused for that, before it is noticed that the store was released.

The release itself makes all commits durable, so the opening that ends the rest finds the table as
it was at the release, with the log position of its last commit. What was announced since is
forgotten. While a snapshot of the directory is held, or a scan of it is under way, the opening is
refused; an opening that is refused changes nothing, in any phase.

A crash is no way out of the rest that is looked at here. It opens a directory of its own.
-/

namespace FileCatalog

namespace Step

/-- The step reads the table of the store or writes to it. -/
def needsTable : Step → Bool
  | .flush | .getBytes _ | .hasKey _ | .putBytes .. | .putBytesIfAbsent .. | .deleteBytes _ => true
  | .get .. | .contains .. | .put .. | .create .. | .delete .. | .count _ => true
  | .takeSnapshot _ | .scan none .. => true
  | _ => false

/-- What a released store answers to a step that needs the table. A scan has made no visit. -/
def refusal : Step → Reply
  | .put c r | .create c r => .failed ((Catalog.fault? c r).getD .closed)
  | .scan .. => .scanned [] (some (.store .closed)) none
  | _ => .failed .closed

end Step

/-- A write on a released store fails as its step is refused. -/
theorem Write.closedError_eq (w : Write) : .failed w.closedError = w.step.refusal := by
  cases w with
  | put c r | create c r =>
    simp only [closedError, step, Step.refusal, Catalog.checkRecord_eq]
    cases Catalog.fault? c r <;> rfl
  | _ => rfl

/-- A fault of a record is told as an invalid key. -/
theorem Catalog.fault?_invalidKey {c : Collection} {r : c.Record} {e : StoreError}
    (fault : Catalog.fault? c r = some e) : ∃ reason, e = .invalidKey reason := by
  cases c with
  | inode | attributes => cases fault
  | dentry | upload =>
    simp only [fault?] at fault
    split at fault
    · cases fault
      exact ⟨_, rfl⟩
    · cases fault

namespace Session

/-- A released store refuses all that needs its table, and is not changed by it. -/
theorem step_refused {s : Session} (released : s.store.isClosed = true) {st : Step}
    (needs : st.needsTable = true) : s.step st = (s, st.refusal) := by
  have write : ∀ w : Write, s.step w.step = (s, w.step.refusal) := fun w => by
    rw [step_write_released released, w.closedError_eq]
  have table := Store.table_of_released released
  cases st with
  | putBytes key value => exact write (.putBytes key value)
  | putBytesIfAbsent key value => exact write (.putBytesIfAbsent key value)
  | deleteBytes key => exact write (.deleteBytes key)
  | put c r => exact write (.put c r)
  | create c r => exact write (.create c r)
  | delete c id => exact write (.delete c id)
  | flush =>
    rw [step, Store.flush_of_released released]
    rfl
  | getBytes key =>
    rw [step, Store.getBytes, table]
    rfl
  | hasKey key =>
    rw [step, Store.hasKey_of_released released]
    rfl
  | get c id =>
    simp only [step, Store.get, Store.getBytes, table]
    rfl
  | contains c id =>
    rw [step, Store.contains, Store.hasKey_of_released released]
    rfl
  | count c =>
    simp only [step, Store.count, Store.snapshot_of_released released]
    rfl
  | takeSnapshot name =>
    rw [step, Store.snapshot_of_released released]
    rfl
  | scan view target halt during =>
    cases view with
    | some name => cases needs
    | none =>
      simp only [step, scan, Target.onStore_closed target released]
      rfl
  | _ => cases needs

end Session

/-! ## The rest of a store -/

/-- A store is opened by the effect, which ends the rest of the one before. -/
def Effect.opens : Effect → Bool
  | .reopen _ | .crash => true
  | _ => false

/-- Releasing a released store changes nothing. -/
theorem Store.release_of_released {s : Store} (released : s.isClosed = true) : s.release = s :=
  if_pos released

@[simp] theorem Store.release_isClosed (s : Store) : s.release.isClosed = true := by
  unfold release
  split
  · assumption
  · rfl

@[simp] theorem Store.release_committed (s : Store) : s.release.committed = s.committed := by
  unfold release
  split <;> rfl

/-- Of a released store nothing but the announced position can move. -/
theorem Turns.rests {openings : UInt64} {s s' : Store} {e : Effect} (turns : Turns openings s e s')
    (released : s.isClosed = true) (unopened : ¬ e.opens) :
    s' = s.setApplyIndex s'.applyIndex := by
  cases turns with
  | none => rfl
  | announce => rfl
  | commit inUse | flush inUse =>
    rw [released] at inUse
    cases inUse
  | release =>
    rw [Store.release_of_released released]
    rfl
  | reopen | crash => exact absurd rfl unopened

namespace Session

/-- Along a course that opens nothing a released store rests. -/
theorem Course.rests {s s' : Session} {trace : List Event} (course : s.Course trace s')
    (released : s.store.isClosed = true) (unopened : ∀ e ∈ trace, ¬ e.effect.opens) :
    s'.store = s.store.setApplyIndex s'.store.applyIndex := by
  induction course with
  | start => rfl
  | @step trace s' before st plain ih =>
    have rested := ih fun e he => unopened e (List.mem_append_left _ he)
    have last := unopened ⟨st, (s'.step st).2⟩ (List.mem_append_right _ List.mem_cons_self)
    have still : s'.store.isClosed = true := by
      rw [rested]
      exact released
    have next := (s'.step_turns plain).rests still last
    rw [rested] at next
    exact next
  | scanning before directories ih => exact ih unopened

/-! ## Opening again -/

/-- Something else still has the directory of the store in use: a snapshot that is held, or a scan
under way. -/
def IsPinned (s : Session) : Prop :=
  (∃ held ∈ s.snapshots, held.2.directory = s.store.directory) ∨
    s.store.directory ∈ s.scanning

/-- A directory is locked while its store is in use, or a snapshot or a scan holds it. -/
theorem isLocked_iff (s : Session) :
    s.isLocked = true ↔ s.store.isClosed = false ∨ s.IsPinned := by
  simp [isLocked, IsPinned, or_assoc]

/-- An opening is refused while the store is in use or its directory pinned. -/
theorem reopen_of_isLocked {s : Session} (locked : s.isLocked = true)
    (writeBuffer : Option UInt64) :
    s.step (.reopen writeBuffer) = (s, .failed (.open s.store.directory lockedCause)) := by
  rw [step, reopen, locked]
  rfl

/-- An opening that is refused, for whatever reason, leaves everything as it was. -/
theorem reopen_of_failed {s : Session} {writeBuffer : Option UInt64} {e : StoreError}
    (failed : (s.step (.reopen writeBuffer)).2 = .failed e) :
    (s.step (.reopen writeBuffer)).1 = s := by
  rw [step] at failed ⊢
  unfold reopen at failed ⊢
  simp only at failed ⊢
  split
  · next opened =>
    rw [opened] at failed
    cases failed
  · rfl

/-- The store that an opening makes of the state that a released store left. -/
def opened (s : Session) (c : Commit) (writeBuffer : Option UInt64) : Store where
  directory := s.store.directory
  committed := c.table
  durable := c.table
  applyIndex := c.position
  writeBuffer := writeBuffer.getD s.writeBuffer

/-- A directory that nobody holds opens with what is durable. -/
theorem reopen_of_free {s : Session} (released : s.store.isClosed = true) (free : ¬ s.IsPinned)
    {c : Commit} (durable : s.store.durable = c.table) (writeBuffer : Option UInt64) :
    let s' := { s with store := s.opened c writeBuffer }
    s.step (.reopen writeBuffer) = (s', .status s'.status) := by
  have unlocked : s.isLocked = false := by
    rw [← Bool.not_eq_true, isLocked_iff, released]
    simpa using free
  have loaded : Store.load s.store.directory s.store.durable (writeBuffer.getD s.writeBuffer) =
      .ok (s.opened c writeBuffer) := by
    rw [durable]
    exact Store.load_eq_ok_iff.mpr ⟨c.position, c.recorded, rfl⟩
  rw [step, reopen, unlocked]
  simp only [Bool.false_eq_true, if_false, loaded]

/-- What there is to a session whose store was released with this state as its last: what its
operations answer, and what an opening finds. -/
structure RestsAt (s : Session) (c : Commit) : Prop where
  committed : s.store.committed = c.table
  durable : s.store.durable = c.table
  refused : ∀ st : Step, st.needsTable = true → s.step st = (s, st.refusal)
  /-- The fault of a record is told first. -/
  faulty : ∀ (c : Collection) (r : c.Record) (e : StoreError), Catalog.fault? c r = some e →
    s.step (.put c r) = (s, .failed e) ∧ s.step (.create c r) = (s, .failed e) ∧
      ∃ reason, e = .invalidKey reason
  unvisited : ∀ {σ : Type} (target : Target) (visit : Scan.Visitor σ Item (ScanFault Nat))
    (state : σ), target.onStore s.store visit state = (state, some (.store .closed))
  /-- The announced position can be told and set. -/
  status : s.step .status = (s, .status
    { directory := s.store.directory, isClosed := true, applyIndex := s.store.applyIndex,
      persisted := .error .closed, unsynced := s.store.unsynced })
  announced : ∀ position, s.step (.setApplyIndex position) =
    ({ s with store := s.store.setApplyIndex position }, .done)
  released : s.step .release = (s, .done)
  pinned : s.IsPinned → ∀ writeBuffer,
    s.step (.reopen writeBuffer) = (s, .failed (.open s.store.directory lockedCause))
  /-- The opening finds the state, and nothing that is not durable. -/
  free : ¬ s.IsPinned → ∀ writeBuffer,
    (s.step (.reopen writeBuffer)).1 = { s with store := s.opened c writeBuffer } ∧
      (s.step (.reopen writeBuffer)).2 = .status
        { directory := s.store.directory, isClosed := false, applyIndex := c.position,
          persisted := .ok c.position, unsynced := 0 }

/-- A released session rests at its last commit. -/
theorem restsAt {s : Session} (released : s.store.isClosed = true) {c : Commit}
    (committed : s.store.committed = c.table) (durable : s.store.durable = c.table) :
    s.RestsAt c where
  committed := committed
  durable := durable
  refused _ := step_refused released
  faulty c r e fault := by
    have told : (Catalog.fault? c r).getD .closed = e := by rw [fault, Option.getD_some]
    refine ⟨?_, ?_, Catalog.fault?_invalidKey fault⟩
    · rw [step_refused released rfl, Step.refusal, told]
    · rw [step_refused released rfl, Step.refusal, told]
  unvisited target := target.onStore_closed released
  status := by
    rw [step, Session.status, Store.persistedIndex, Store.table_of_released released, released]
    rfl
  announced _ := rfl
  released := by
    rw [step, Store.release_of_released released]
    rfl
  pinned pinned := reopen_of_isLocked ((isLocked_iff s).mpr (Or.inr pinned))
  free free writeBuffer := by
    rw [reopen_of_free released free durable]
    refine ⟨rfl, ?_⟩
    rw [← c.recorded]
    rfl

end Session

/-- **A released store rests until its directory is opened.** From a store that was just opened, at
any moment `s` of any run, let the store be released, and let any course follow that opens nothing.
Then the store is the released one, but for the position announced since; it refuses what needs its
table, and an opening finds the table as it was at the release (`Session.RestsAt`). Snapshots that
are still held are read as before. An opening that fails changes nothing, at any moment. -/
theorem release_rests_until_opened {s₀ s s' : Session} {origin : Commit} {w : UInt64}
    {before after : List Event}
    (opened : Store.load s₀.store.directory origin.table w = .ok s₀.store)
    (reached : s₀.Course before s) (later : (s.step .release).1.Course after s')
    (unopened : ∀ e ∈ after, ¬ e.effect.opens) :
    let ledger := (Ledger.opened origin w s₀.writeBuffer).follow
    let l := ledger before
    s.store.committed = l.current.table ∧ s'.RestsAt l.current ∧
      s'.store = s.store.release.setApplyIndex
        (ledger (before ++ ⟨.release, .done⟩ :: after)).announced ∧
      (∀ name, (∀ e ∈ after, ¬ e.drops name) → s'.ReadsAlike name s) ∧
      ∀ (moment : Session) (writeBuffer : Option UInt64) (e : StoreError),
        (moment.step (.reopen writeBuffer)).2 = .failed e →
          (moment.step (.reopen writeBuffer)).1 = moment := by
  intro ledger l
  have start := Ledger.opened_describes opened s₀.writeBuffer
  obtain ⟨described, -⟩ := reached.described start rfl
  have releasing : (s.step .release).1.store = s.store.release := rfl
  have released : s'.store.isClosed = true ∧ s'.store.committed = l.current.table ∧
      s'.store.durable = l.current.table := by
    have rested := later.rests s.store.release_isClosed unopened
    rw [rested, releasing]
    refine ⟨s.store.release_isClosed, ?_, ?_⟩
    · exact s.store.release_committed.trans described.committed
    · exact described.release.durable.trans (congrArg Commit.table l.recovered_sync)
  obtain ⟨closed, committed, durable⟩ := released
  refine ⟨described.committed, Session.restsAt closed committed durable, ?_, ?_,
    fun _ _ _ => Session.reopen_of_failed⟩
  · have whole : s₀.Course (before ++ [⟨.release, .done⟩] ++ after) s' :=
      (reached.step .release rfl).trans later
    rw [List.append_assoc] at whole
    have announced := (whole.described start rfl).1.announced
    have rested := later.rests s.store.release_isClosed unopened
    rw [announced] at rested
    exact rested
  · intro name kept
    exact Session.readsAlike_of_snapshot? (later.snapshot?_kept kept)

/-- The position that was announced last is forgotten with the rest; the commit below the write
buffer is not. -/
theorem release_rests_with_snapshot :
    let s₀ := Session.start "/data" 100
    let before : List Step :=
      [.setApplyIndex 5, .putBytes [7] [1, 2], .takeSnapshot "view", .setApplyIndex 6]
    let after : List Step :=
      [.putBytes [7] [], .setApplyIndex 9, .release, .reopen none, .closeSnapshot "view"]
    let s := (s₀.run before).1
    let s' := ((s.step .release).1.run after).1
    (∀ e ∈ Step.eventsOf after ((s.step .release).1.run after).2, ¬ e.effect.opens) ∧
      s'.store.applyIndex = 9 ∧ ¬ s'.IsPinned ∧
      (s'.step (.reopen none)).2 = .status
        { directory := "/data/store", isClosed := false, applyIndex := 5, persisted := .ok 5,
          unsynced := 0 } := by
  intro s₀ before after s s'
  have opened : Store.load s₀.store.directory Commit.empty.table 100 = .ok s₀.store := rfl
  have reached : s₀.Course ([] ++ Step.eventsOf before (s₀.run before).2) s :=
    Session.Course.run_extends before (by simp [before, Step.AreOperations, Step.IsOperation])
      .start
  have later : (s.step .release).1.Course
      ([] ++ Step.eventsOf after ((s.step .release).1.run after).2) s' :=
    Session.Course.run_extends after (by simp [after, Step.AreOperations, Step.IsOperation]) .start
  have unopened : ∀ e ∈ Step.eventsOf after ((s.step .release).1.run after).2,
      ¬ e.effect.opens := by
    decide
  have free : ¬ s'.IsPinned := by
    rintro (⟨held, among, -⟩ | among)
    · exact List.not_mem_nil among
    · exact List.not_mem_nil among
  obtain ⟨-, rests, -⟩ := release_rests_until_opened opened reached later unopened
  exact ⟨unopened, rfl, free, (rests.free free none).2⟩

end FileCatalog
