import FileCatalog.Proofs.Course

/-!
# The effect of an event

What a plain step does to the store can be told from the step and its answer: `Event.effect`.
`Session.step_turns` is the one place where the steps of a session are taken apart. It says
everything that each of them can do to the store, with the condition under which it does so
(`Turns`); invariants of the store are derived from it. `Session.step_beside` is its counterpart for
what a session has beside its store.
-/

namespace FileCatalog

/-- What happens to a store. -/
inductive Effect where
  | none
  | announce (position : UInt64)
  | commit (c : Change)
  | flush
  | release
  /-- The directory is opened again, with a write buffer of its own if one is given. -/
  | reopen (writeBuffer : Option UInt64)
  | crash

/-- What happened to the store, as the answer tells. -/
def Event.effect (e : Event) : Effect :=
  match e.step, e.reply with
  | .setApplyIndex position, _ => .announce position
  | .putBytes key value, .done => .commit ⟨key, some value⟩
  | .putBytesIfAbsent key value, .flag true => .commit ⟨key, some value⟩
  | .deleteBytes key, .done => .commit ⟨key, none⟩
  | .put c r, .done => .commit ⟨Key.ofRecord c r, some (c.encode r)⟩
  | .create c r, .done => .commit ⟨Key.ofRecord c r, some (c.encode r)⟩
  | .delete c id, .done => .commit ⟨Key.of c id, none⟩
  | .flush, .done => .flush
  | .release, _ => .release
  | .reopen writeBuffer, .status _ => .reopen writeBuffer
  | .crash, .status _ => .crash
  | .crash, _ => .release
  | _, _ => .none

/-- From the first store to the second by an effect, where an opening that names no write buffer
has the given one. -/
inductive Turns (openings : UInt64) : Store → Effect → Store → Prop
  | none {s : Store} : Turns openings s .none s
  | announce {s : Store} {position : UInt64} :
    Turns openings s (.announce position) (s.setApplyIndex position)
  | commit {s : Store} {c : Change} (inUse : s.isClosed = false) :
    Turns openings s (.commit c) (s.perform c)
  | flush {s : Store} (inUse : s.isClosed = false) :
    Turns openings s .flush { s with durable := s.committed, unsynced := 0 }
  | release {s : Store} : Turns openings s .release s.release
  | reopen {s s' : Store} {writeBuffer : Option UInt64} (released : s.isClosed = true)
    (loaded : Store.load s.directory s.durable (writeBuffer.getD openings) = .ok s') :
    Turns openings s (.reopen writeBuffer) s'
  | crash {s s' : Store} {directory : String}
    (loaded : Store.load directory s.durable openings = .ok s') : Turns openings s .crash s'

namespace Write

/-- A write that succeeds commits its change. -/
theorem effect_success (w : Write) : Event.effect ⟨w.step, w.success⟩ = .commit w.change := by
  cases w <;> rfl

theorem effect_failed (w : Write) (e : StoreError) :
    Event.effect ⟨w.step, .failed e⟩ = .none := by
  cases w <;> rfl

/-- A write that the table refuses has no effect. -/
theorem effect_refusal {w : Write} {t : Table} {reply : Reply} (h : w.refusal? t = some reply) :
    Event.effect ⟨w.step, reply⟩ = .none := by
  have failed : ∀ e, reply = .failed e → Event.effect ⟨w.step, reply⟩ = .none :=
    fun e he => he ▸ w.effect_failed e
  cases w with
  | putBytes | deleteBytes | delete => cases h
  | putBytesIfAbsent key value =>
    simp only [refusal?] at h
    split at h <;> cases h
    rfl
  | put c r =>
    simp only [refusal?] at h
    split at h <;> cases h
    exact failed _ rfl
  | create c r =>
    simp only [refusal?] at h
    split at h
    · split at h <;> cases h
      exact failed _ rfl
    · cases h
      exact failed _ rfl

end Write

namespace Session

/-- A write turns the store as its answer says: by its change if it succeeded, else not at all. -/
private theorem step_write_turns (s : Session) (w : Write) :
    Turns s.writeBuffer s.store (Event.effect ⟨w.step, (s.step w.step).2⟩)
      (s.step w.step).1.store := by
  cases released : s.store.isClosed with
  | true =>
    rw [step_write_released released, w.effect_failed]
    exact .none
  | false =>
    rw [step_write released]
    cases refused : w.refusal? s.store.committed with
    | some reply =>
      simp only [w.effect_refusal refused]
      exact .none
    | none =>
      simp only [withStore, w.effect_success]
      exact .commit released

/-- Only a directory whose store was released is free. -/
theorem isClosed_of_not_isLocked {s : Session} (free : s.isLocked = false) :
    s.store.isClosed = true := by
  simp only [isLocked, Bool.or_eq_false_iff, Bool.not_eq_false'] at free
  exact free.1.1

/-- An opening turns the store as its answer says; one that fails leaves it. -/
private theorem reopen_turns (s : Session) (writeBuffer : Option UInt64) :
    Turns s.writeBuffer s.store (Event.effect ⟨.reopen writeBuffer, (s.reopen writeBuffer).2⟩)
      (s.reopen writeBuffer).1.store := by
  unfold reopen
  cases locked : s.isLocked with
  | true => exact .none
  | false =>
    have released := isClosed_of_not_isLocked locked
    cases loaded :
      Store.load s.store.directory s.store.durable (writeBuffer.getD s.writeBuffer) with
    | error e => exact .none
    | ok store => exact .reopen released loaded

/-- Where the next crash leaves what was durable. -/
def crashDirectory (s : Session) : String := s!"{s.base}/crash{s.crashes + 1}"

/-- After a crash what was durable is opened, with its log position announced. -/
theorem crash_of_readable {s : Session} {position : UInt64}
    (readable : s.store.durable.applyIndex = .ok position) :
    s.crash.1.store =
        { directory := s.crashDirectory, committed := s.store.durable, durable := s.store.durable,
          applyIndex := position, writeBuffer := s.writeBuffer } ∧
      s.crash.2 = .status
        { directory := s.crashDirectory, isClosed := false, applyIndex := position,
          persisted := .ok position, unsynced := 0 } := by
  unfold crash
  simp only [Store.load, readable]
  refine ⟨rfl, ?_⟩
  rw [← readable]
  rfl

/-- A crash whose durable table is damaged leaves the store released. -/
theorem crash_of_damaged {s : Session} {e : StoreError}
    (damaged : s.store.durable.applyIndex = .error e) :
    s.crash.1.store = s.store.release ∧
      s.crash.2 = .failed (.open s.crashDirectory e.message) := by
  constructor
  · simp only [crash, Store.load, damaged]
  · simp only [crash, Store.load, damaged]
    rfl

/-- A crash turns the store into one opened on what was durable, or, where that cannot be opened,
into a released one. -/
private theorem crash_turns (s : Session) :
    Turns s.writeBuffer s.store (Event.effect ⟨.crash, s.crash.2⟩) s.crash.1.store := by
  cases read : s.store.durable.applyIndex with
  | error e =>
    obtain ⟨store, reply⟩ := crash_of_damaged read
    rw [store, reply]
    exact .release
  | ok position =>
    obtain ⟨store, reply⟩ := crash_of_readable read
    rw [store, reply]
    exact .crash (Store.load_eq_ok_iff.mpr ⟨position, read, rfl⟩)

/-- All that a plain step can do to the store of its session. -/
theorem step_turns (s : Session) {st : Step} (plain : st.isPlain = true) :
    Turns s.writeBuffer s.store (Event.effect ⟨st, (s.step st).2⟩) (s.step st).1.store := by
  cases st with
  | poke | scan => cases plain
  | putBytes key value => exact s.step_write_turns (.putBytes key value)
  | putBytesIfAbsent key value => exact s.step_write_turns (.putBytesIfAbsent key value)
  | deleteBytes key => exact s.step_write_turns (.deleteBytes key)
  | put c r => exact s.step_write_turns (.put c r)
  | create c r => exact s.step_write_turns (.create c r)
  | delete c id => exact s.step_write_turns (.delete c id)
  | setApplyIndex position => exact .announce
  | flush =>
    cases released : s.store.isClosed with
    | true =>
      simp only [step, Store.flush_of_released released]
      exact .none
    | false =>
      simp only [step, Store.flush_of_inUse released]
      exact .flush released
  | release => exact .release
  | reopen writeBuffer => exact s.reopen_turns writeBuffer
  | crash => exact s.crash_turns
  | takeSnapshot name =>
    simp only [step]
    cases s.store.snapshot with
    | error e => exact .none
    | ok view => exact .none
  | closeSnapshot name =>
    simp only [step]
    cases s.snapshot? name with
    | none => exact .none
    | some view => exact .none
  | snapshotGet name | snapshotApplyIndex name | snapshotCount name =>
    simp only [step, askSnapshot]
    cases s.snapshot? name with
    | none => exact .none
    | some view => exact .none
  | _ => exact .none

/-- What a step does to the store it does beside the configured buffer and the snapshots. -/
private theorem update_beside {α : Type} (s : Session) (store : α → Store) (reply : α → Reply)
    (outcome : Except StoreError α) :
    (s.update store reply outcome).1.writeBuffer = s.writeBuffer ∧
      (s.update store reply outcome).1.snapshots = s.snapshots := by
  cases outcome <;> exact ⟨rfl, rfl⟩

/-- What plain steps leave beside the store: the write buffer of the openings that name none, and
all snapshots but for the two steps that are about them. -/
theorem step_beside (s : Session) {st : Step} (plain : st.isPlain = true) :
    (s.step st).1.writeBuffer = s.writeBuffer ∧
      ((∃ name, st = .takeSnapshot name ∨ st = .closeSnapshot name) ∨
        (s.step st).1.snapshots = s.snapshots) := by
  have both : ∀ {s' : Session}, s'.writeBuffer = s.writeBuffer ∧ s'.snapshots = s.snapshots →
      s'.writeBuffer = s.writeBuffer ∧
        ((∃ name, st = .takeSnapshot name ∨ st = .closeSnapshot name) ∨
          s'.snapshots = s.snapshots) := fun h => ⟨h.1, Or.inr h.2⟩
  cases st with
  | poke | scan => cases plain
  | putBytes | putBytesIfAbsent | deleteBytes | put | create | delete | flush =>
    exact both (s.update_beside _ _ _)
  | reopen =>
    simp only [step, reopen]
    split <;> exact both ⟨rfl, rfl⟩
  | crash =>
    simp only [step, crash]
    split <;> exact both ⟨rfl, rfl⟩
  | takeSnapshot name =>
    refine ⟨?_, Or.inl ⟨name, Or.inl rfl⟩⟩
    simp only [step]
    split <;> rfl
  | closeSnapshot name =>
    refine ⟨?_, Or.inl ⟨name, Or.inr rfl⟩⟩
    simp only [step]
    split <;> rfl
  | snapshotGet | snapshotApplyIndex | snapshotCount =>
    simp only [step, askSnapshot]
    split <;> exact both ⟨rfl, rfl⟩
  | _ => exact both ⟨rfl, rfl⟩

end Session

end FileCatalog
