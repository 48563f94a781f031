import FileCatalog.Proofs.Effect

/-!
# The ledger of a store

A `Ledger` is what a caller can know of a store by keeping book of the answers: the states that
were committed since the store was first opened, each with the log position announced at its
commit, and how many of them are durable. It is kept in two lists, the commits up to the last
durable point and the commits since, so a crash is a list forgotten.

The ledger knows nothing of copies of tables, of counters or of files. `Ledger.Describes` says that
a session agrees with it: committed and durable table, announced position and pending payload.
`Session.Course.described` says that agreement lasts along every course, with the effects of its
events entered.
-/

namespace FileCatalog

/-- A committed state of a table. -/
structure Commit where
  table : Table
  position : UInt64
  payload : Nat := 0
  /-- The table itself tells the log position. -/
  recorded : table.applyIndex = .ok position

namespace Commit

/-- What a fresh directory holds: nothing, at position zero. -/
def empty : Commit where
  table := ∅
  position := 0
  recorded := rfl

/-- What committing a change makes of the state. -/
def next (c : Commit) (change : Change) (position : UInt64) : Commit where
  table := change.record position c.table
  position := position
  payload := change.payload
  recorded := change.applyIndex_record position c.table

end Commit

/-- The commits of a store since it was first opened. -/
structure Ledger where
  origin : Commit
  /-- The commits up to the last durable point, the oldest first. -/
  durable : List Commit := []
  /-- The commits since the last durable point. -/
  volatile : List Commit := []
  announced : UInt64
  writeBuffer : UInt64
  /-- The write buffer of openings that name none. -/
  openings : UInt64

namespace Ledger

/-- The ledger of a store that was just opened on what a commit left. -/
def opened (origin : Commit) (writeBuffer openings : UInt64) : Ledger where
  origin := origin
  announced := origin.position
  writeBuffer := writeBuffer
  openings := openings

/-- All states, the first opening at the head. -/
def history (l : Ledger) : List Commit := l.origin :: (l.durable ++ l.volatile)

/-- The state of the last durable point. -/
def recovered (l : Ledger) : Commit := l.durable.getLastD l.origin

/-- The last commit, durable or not. -/
def current (l : Ledger) : Commit := l.volatile.getLastD l.recovered

/-- The payload that a crash would lose. -/
def pending (l : Ledger) : Nat := l.volatile.foldl (fun sum c => sum + c.payload) 0

/-- Everything committed made durable. -/
def sync (l : Ledger) : Ledger := { l with durable := l.durable ++ l.volatile, volatile := [] }

/-- The ledger with a commit entered, whether durable or not. -/
def append (l : Ledger) (c : Commit) : Ledger := { l with volatile := l.volatile ++ [c] }

/-- The ledger with a change entered. Its commit is a durable point if the payload since the last
one, its own included, reaches the write buffer. -/
def commit (l : Ledger) (change : Change) : Ledger :=
  let l' := l.append (l.current.next change l.announced)
  if l.writeBuffer.toNat ≤ l'.pending then l'.sync else l'

/-- What an effect enters in the ledger. -/
def enter (l : Ledger) : Effect → Ledger
  | .none => l
  | .announce position => { l with announced := position }
  | .commit change => l.commit change
  | .flush | .release => l.sync
  | .reopen writeBuffer =>
    { l.sync with announced := l.current.position, writeBuffer := writeBuffer.getD l.openings }
  | .crash =>
    { l with volatile := [], announced := l.recovered.position, writeBuffer := l.openings }

/-- A trace entered, event by event. -/
def follow (l : Ledger) (trace : List Event) : Ledger :=
  trace.foldl (fun l e => l.enter e.effect) l

@[simp] theorem follow_append (l : Ledger) (trace more : List Event) :
    l.follow (trace ++ more) = (l.follow trace).follow more := List.foldl_append

@[simp] theorem follow_singleton (l : Ledger) (e : Event) : l.follow [e] = l.enter e.effect := rfl

/-- The recovered state comes after as many commits as are durable. -/
theorem history_durable (l : Ledger) : l.history[l.durable.length]? = some l.recovered := by
  obtain ⟨origin, durable, volatile⟩ := l
  rcases List.eq_nil_or_concat durable with rfl | ⟨before, last, rfl⟩
  · rfl
  · simp [history, recovered]

/-- After a sync a crash recovers the last commit. -/
@[simp] theorem recovered_sync (l : Ledger) : l.sync.recovered = l.current := by
  obtain ⟨origin, durable, volatile⟩ := l
  rcases List.eq_nil_or_concat volatile with rfl | ⟨before, last, rfl⟩
  · simp [sync, recovered, current]
  · simp [sync, recovered, current]

@[simp] theorem current_sync (l : Ledger) : l.sync.current = l.current := by
  rw [current]
  exact l.recovered_sync

/-- The commit that was entered last is the current one. -/
@[simp] theorem current_append (l : Ledger) (c : Commit) : (l.append c).current = c := by
  simp [append, current]

/-- A commit entered adds its payload to what is pending. -/
theorem pending_append (l : Ledger) (c : Commit) :
    (l.append c).pending = l.pending + c.payload := by
  simp [append, pending]

/-- With nothing volatile, the last commit is the one that a crash recovers. -/
theorem current_of_settled {l : Ledger} (settled : l.volatile = []) : l.current = l.recovered := by
  rw [current, settled]
  rfl

/-! ## Agreement with a store -/

/-- The store agrees with the ledger. The payload counter is kept only while the store is in use; a
release leaves it as it is. -/
structure Describes (l : Ledger) (s : Store) : Prop where
  committed : s.committed = l.current.table
  durable : s.durable = l.recovered.table
  announced : s.applyIndex = l.announced
  writeBuffer : s.writeBuffer = l.writeBuffer
  pending : s.isClosed = false → s.unsynced = l.pending
  settled : s.isClosed = true → l.volatile = []

namespace Describes

variable {l : Ledger} {s s' : Store}

/-- A store that was just opened agrees with every ledger that ends in the state it was opened on,
all durable. -/
theorem of_load {directory : String} {w : UInt64}
    (loaded : Store.load directory l.recovered.table w = .ok s) (settled : l.volatile = [])
    (announced : l.announced = l.recovered.position) (writeBuffer : l.writeBuffer = w) :
    l.Describes s := by
  obtain ⟨committed, durable, position, -, unsynced, buffer⟩ := Store.load_fields loaded
  have found := Except.ok.inj (position.symm.trans l.recovered.recorded)
  exact {
    committed := by rw [committed, current_of_settled settled]
    durable := durable
    announced := by rw [found, announced]
    writeBuffer := by rw [buffer, writeBuffer]
    pending := fun _ => by rw [unsynced, Ledger.pending, settled]; rfl
    settled := fun _ => settled }

/-- A change performed by the store is a commit of the ledger: made durable in both, or in neither.
-/
theorem perform (h : l.Describes s) (inUse : s.isClosed = false) (c : Change) :
    (l.commit c).Describes (s.perform c) := by
  have table : c.record s.applyIndex s.committed = (l.current.next c l.announced).table := by
    rw [h.committed, h.announced]
    rfl
  have pending : (l.append (l.current.next c l.announced)).pending = s.unsynced + c.payload := by
    rw [pending_append, h.pending inUse]
    rfl
  -- From here on the store and the ledger decide by the same sum.
  simp only [Store.perform, Ledger.commit, pending, ← h.writeBuffer]
  by_cases reached : s.writeBuffer.toNat ≤ s.unsynced + c.payload
  · rw [if_pos reached, Store.commit_reached _ reached]
    exact {
      committed := by rw [current_sync, current_append, ← table]
      durable := by rw [recovered_sync, current_append, ← table]
      announced := h.announced
      writeBuffer := h.writeBuffer
      pending := fun _ => rfl
      settled := fun _ => rfl }
  · rw [if_neg reached, Store.commit_below _ (by omega)]
    exact {
      committed := by rw [current_append, ← table]
      durable := h.durable
      announced := h.announced
      writeBuffer := h.writeBuffer
      pending := fun _ => pending.symm
      settled := fun released => absurd (inUse.symm.trans released) Bool.false_ne_true }

/-- A release is a durable point, a second one is nothing. -/
theorem release (h : l.Describes s) : l.sync.Describes s.release := by
  unfold Store.release
  by_cases released : s.isClosed = true
  · have durable : s.durable = l.current.table := by
      rw [h.durable, current_of_settled (h.settled released)]
    rw [if_pos released]
    exact {
      committed := by rw [current_sync]; exact h.committed
      durable := by rw [recovered_sync]; exact durable
      announced := h.announced
      writeBuffer := h.writeBuffer
      pending := fun inUse => absurd (inUse.symm.trans released) Bool.false_ne_true
      settled := fun _ => rfl }
  · rw [if_neg released]
    exact {
      committed := by rw [current_sync]; exact h.committed
      durable := by rw [recovered_sync]; exact h.committed
      announced := h.announced
      writeBuffer := h.writeBuffer
      pending := fun inUse => Bool.noConfusion inUse
      settled := fun _ => rfl }

/-- Agreement lasts when the store turns and the effect is entered. -/
theorem turn {e : Effect} (h : l.Describes s) (turns : Turns l.openings s e s') :
    (l.enter e).Describes s' := by
  cases turns with
  | none => exact h
  | announce => exact ⟨h.committed, h.durable, rfl, h.writeBuffer, h.pending, h.settled⟩
  | commit inUse => exact h.perform inUse _
  | flush inUse =>
    exact {
      committed := by rw [enter, current_sync]; exact h.committed
      durable := by rw [enter, recovered_sync]; exact h.committed
      announced := h.announced
      writeBuffer := h.writeBuffer
      pending := fun _ => rfl
      settled := fun _ => rfl }
  | release => exact h.release
  | reopen released loaded =>
    have all : s.durable = l.sync.recovered.table := by
      rw [h.durable, recovered_sync, current_of_settled (h.settled released)]
    rw [all] at loaded
    exact of_load loaded rfl (congrArg Commit.position l.recovered_sync.symm) rfl
  | crash loaded =>
    rw [h.durable] at loaded
    exact of_load loaded rfl rfl rfl

end Describes

/-- An opened store is described by a ledger that begins with the commit found. -/
theorem opened_describes {s : Store} {origin : Commit} {directory : String} {w : UInt64}
    (loaded : Store.load directory origin.table w = .ok s) (openings : UInt64) :
    (opened origin w openings).Describes s :=
  .of_load loaded rfl rfl rfl

@[simp] theorem openings_enter (l : Ledger) (e : Effect) : (l.enter e).openings = l.openings := by
  cases e with
  | commit c =>
    simp only [enter, commit]
    split <;> rfl
  | _ => rfl

end Ledger

/-- Agreement lasts along every course, with the effects of its events entered. -/
theorem Session.Course.described {l : Ledger} {s s' : Session} {trace : List Event}
    (course : s.Course trace s') (h : l.Describes s.store) (openings : l.openings = s.writeBuffer) :
    (l.follow trace).Describes s'.store ∧ (l.follow trace).openings = s'.writeBuffer := by
  induction course with
  | start => exact ⟨h, openings⟩
  | @step trace s' before st plain ih =>
    obtain ⟨described, kept⟩ := ih
    have turns := s'.step_turns plain
    rw [← kept] at turns
    rw [Ledger.follow_append, Ledger.follow_singleton]
    refine ⟨described.turn turns, ?_⟩
    rw [Ledger.openings_enter, kept, (s'.step_beside plain).1]
  | scanning before directories ih => exact ih

end FileCatalog
