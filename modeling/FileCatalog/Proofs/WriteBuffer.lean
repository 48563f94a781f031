import FileCatalog.Proofs.Recovery

/-!
# What the write buffer bounds

Between two durable points a store counts the payload that it commits. `Ledger.pending` is the exact
sum of it, over as many commits as there are; the store counts within a word and stops at the
largest one. `write_buffer_bounds_loss` says that the two agree at every moment of every run, that
the sum stays below the write buffer, and what each operation makes of it. The commits that a crash
would discard are those that are summed up, so a crash never costs a write buffer's worth.

The bound is on payload, the octets of keys and values that are written. It says nothing of how many
commits are discarded: a deletion under the empty key has no payload at all.
-/

namespace FileCatalog

/-! ## The payload of a write -/

/-- The octets that a write brings when it commits. -/
def Write.payload : Write → Nat
  | putBytes key value | putBytesIfAbsent key value => key.length + value.length
  | deleteBytes key => key.length
  | put c r | create c r => (Key.ofRecord c r).length + (c.encode r).length
  | delete c id => (Key.of c id).length

/-- The payload of a write is that of the change that it commits. -/
theorem Write.payload_change (w : Write) : w.change.payload = w.payload := by
  cases w <;> rfl

/-! ## Operations that only read -/

namespace Step

mutual

/-- The step asks the store or a snapshot, or takes or closes a snapshot, as do all steps inside
it. -/
def IsReading : Step → Prop
  | .status | .getBytes _ | .hasKey _ | .get .. | .contains .. | .count _ => True
  | .takeSnapshot _ | .closeSnapshot _ => True
  | .snapshotGet .. | .snapshotApplyIndex _ | .snapshotCount .. => True
  | .scan _ _ _ during => AreReadings during
  | _ => False

/-- All of the steps only read. -/
def AreReadings : List Step → Prop
  | [] => True
  | st :: rest => st.IsReading ∧ AreReadings rest

end

end Step

namespace Session

mutual

/-- A step that only reads leaves the store as it was, a scan with reads in between included. -/
theorem step_of_reading (st : Step) (reading : st.IsReading) (s : Session) :
    (s.step st).1.store = s.store := by
  cases st with
  | scan view target halt during =>
    have inner := run_of_readings during reading
    rw [step]
    rcases s.scan_cases view target halt (fun inner => inner.run during) with
      ⟨reply, scanned, -⟩ | ⟨directory, seen, fault, scanned⟩
    · rw [scanned]
    · rw [scanned]
      exact inner { s with scanning := directory :: s.scanning }
  | takeSnapshot name =>
    simp only [step]
    cases s.store.snapshot <;> rfl
  | closeSnapshot name =>
    simp only [step]
    cases s.snapshot? name <;> rfl
  | snapshotGet name | snapshotApplyIndex name | snapshotCount name =>
    simp only [step, askSnapshot]
    cases s.snapshot? name <;> rfl
  | status | getBytes | hasKey | get | contains | count => rfl
  | _ => exact reading.elim

theorem run_of_readings (steps : List Step) (readings : Step.AreReadings steps) (s : Session) :
    (s.run steps).1.store = s.store := by
  cases steps with
  | nil => rfl
  | cons st rest =>
    have first := step_of_reading st readings.1 s
    have others := run_of_readings rest readings.2 (s.step st).1
    exact others.trans first

end

end Session

/-! ## The sum of payload -/

namespace Ledger

variable {l : Ledger}

/-- The payload that is not durable is below the write buffer. A buffer of zero has nothing below
it: every commit is durable then. -/
def WithinBuffer (l : Ledger) : Prop :=
  l.pending < l.writeBuffer.toNat ∨ l.writeBuffer = 0 ∧ l.volatile = []

/-- With nothing volatile, nothing is pending. -/
theorem pending_of_settled (settled : l.volatile = []) : l.pending = 0 := by
  rw [pending, settled]
  rfl

/-- A settled ledger is within its buffer, whatever the buffer. -/
theorem withinBuffer_of_settled (settled : l.volatile = []) : l.WithinBuffer := by
  by_cases zero : l.writeBuffer = 0
  · exact Or.inr ⟨zero, settled⟩
  · have positive : l.writeBuffer.toNat ≠ 0 := fun h => zero (UInt64.toNat_inj.mp h)
    exact Or.inl (by rw [pending_of_settled settled]; exact Nat.pos_of_ne_zero positive)

/-- A commit that brings the sum to the write buffer is durable at once, all before it included. -/
theorem commit_of_reached {change : Change}
    (reached : l.writeBuffer.toNat ≤ l.pending + change.payload) :
    l.commit change = (l.append (l.current.next change l.announced)).sync := by
  have sum : (l.append (l.current.next change l.announced)).pending = _ := l.pending_append _
  exact if_pos (sum ▸ reached)

/-- A commit that leaves the sum below the write buffer is volatile. -/
theorem commit_of_below {change : Change}
    (below : l.pending + change.payload < l.writeBuffer.toNat) :
    l.commit change = l.append (l.current.next change l.announced) := by
  have sum : (l.append (l.current.next change l.announced)).pending = _ := l.pending_append _
  exact if_neg (sum ▸ Nat.not_le.mpr below)

/-- Every effect keeps the ledger within its buffer. -/
theorem WithinBuffer.enter (h : l.WithinBuffer) (e : Effect) : (l.enter e).WithinBuffer := by
  cases e with
  | none | announce => exact h
  | flush | release | reopen | crash => exact withinBuffer_of_settled rfl
  | commit change =>
    rw [Ledger.enter]
    by_cases reached : l.writeBuffer.toNat ≤ l.pending + change.payload
    · rw [commit_of_reached reached]
      exact withinBuffer_of_settled rfl
    · have below := Nat.not_le.mp reached
      rw [commit_of_below below]
      refine Or.inl ?_
      rw [pending_append]
      exact below

/-- Every trace keeps the ledger within its buffer. -/
theorem WithinBuffer.follow (h : l.WithinBuffer) (trace : List Event) :
    (l.follow trace).WithinBuffer := by
  induction trace generalizing l with
  | nil => exact h
  | cons e rest ih => exact ih (h.enter e.effect)

/-- The states behind the one that is recovered are those of the commits that are not durable. -/
theorem history_drop_durable (l : Ledger) :
    l.history.drop (l.durable.length + 1) = l.volatile := by
  rw [history, List.drop_succ_cons, List.drop_left]

end Ledger

/-! ## The count of a store -/

namespace Session

/-- The store of the session is in use and counts this much payload, and a crash now goes back to
this state. -/
structure Stands (s : Session) (payload : Nat) (c : Commit) : Prop where
  inUse : s.store.isClosed = false
  counted : s.store.unsynced = payload
  recovers : s.Recovers c

/-- What each operation on a store in use makes of the payload that is counted, and of the state
that a crash goes back to. -/
structure Counts (l : Ledger) (s : Session) : Prop where
  now : s.Stands l.pending l.recovered
  reading : ∀ st : Step, st.IsReading → (s.step st).1.Stands l.pending l.recovered
  announcing : ∀ position, (s.step (.setApplyIndex position)).1.Stands l.pending l.recovered
  /-- A value whose key is occupied, and a record that is taken or has no key of its own. -/
  refused : ∀ (w : Write) (reply : Reply), w.refusal? s.store.committed = some reply →
    s.step w.step = (s, reply)
  /-- The commit is durable when the sum, its own payload included, reaches the write buffer. -/
  reached : ∀ w : Write, w.refusal? s.store.committed = none →
    s.store.writeBuffer.toNat ≤ l.pending + w.payload →
      (s.step w.step).1.Stands 0 (l.current.next w.change l.announced)
  /-- Otherwise it is not. -/
  below : ∀ w : Write, w.refusal? s.store.committed = none →
    l.pending + w.payload < s.store.writeBuffer.toNat →
      (s.step w.step).1.Stands (l.pending + w.payload) l.recovered
  flush : (s.step .flush).1.Stands 0 l.current

section Described

variable {l : Ledger} {s : Session} (described : l.Describes s.store)
include described

/-- A store in use counts what its ledger sums up, and a crash finds what the ledger recovers. -/
theorem stands_of_describes (inUse : s.store.isClosed = false) :
    s.Stands l.pending l.recovered :=
  ⟨inUse, described.pending inUse, described.recovers⟩

/-- A write that is accepted is a commit, and leaves the store in use. -/
private theorem stands_of_accepted (inUse : s.store.isClosed = false) {w : Write}
    (accepted : w.refusal? s.store.committed = none) :
    (s.step w.step).1.Stands (l.commit w.change).pending (l.commit w.change).recovered := by
  have performed : (s.step w.step).1.store = s.store.perform w.change := by
    rw [step_write inUse, accepted]
    rfl
  refine stands_of_describes ?_ ?_
  · rw [performed]
    exact described.perform inUse w.change
  · rw [performed, Store.perform_isClosed]
    exact inUse

/-- What each operation makes of the sum, read off the ledger. -/
theorem counts_of_describes (inUse : s.store.isClosed = false) : Counts l s where
  now := stands_of_describes described inUse
  reading st reading := by
    have same := step_of_reading st reading s
    exact stands_of_describes (same ▸ described) (same ▸ inUse)
  announcing position :=
    stands_of_describes (l := l.enter (.announce position)) (described.turn .announce) inUse
  refused w reply refusal := by rw [step_write inUse, refusal]
  reached w accepted reached := by
    have stands := stands_of_accepted described inUse accepted
    rw [described.writeBuffer, ← w.payload_change] at reached
    rw [Ledger.commit_of_reached reached, Ledger.recovered_sync, Ledger.current_append] at stands
    exact stands
  below w accepted below := by
    have stands := stands_of_accepted described inUse accepted
    rw [described.writeBuffer, ← w.payload_change] at below
    rw [Ledger.commit_of_below below, Ledger.pending_append] at stands
    rw [← w.payload_change]
    exact stands
  flush := by
    have flushed : (s.step .flush).1.store =
        { s.store with durable := s.store.committed, unsynced := 0 } := by
      simp only [step, Store.flush_of_inUse inUse]
      rfl
    have stands : (s.step .flush).1.Stands l.sync.pending l.sync.recovered := by
      refine stands_of_describes ?_ ?_
      · rw [flushed]
        exact described.turn (.flush inUse)
      · rw [flushed]
        exact inUse
    rw [Ledger.recovered_sync] at stands
    exact stands

variable (openings : l.openings = s.writeBuffer)
include openings

/-- An opening that succeeds starts with no payload counted, and all commits durable. -/
theorem stands_of_reopen {writeBuffer : Option UInt64} {status : Status}
    (answer : (s.step (.reopen writeBuffer)).2 = .status status) :
    (s.step (.reopen writeBuffer)).1.Stands 0 l.current := by
  have plain : Step.isPlain (.reopen writeBuffer) = true := rfl
  have turns := s.step_turns plain
  rw [answer, ← openings] at turns
  have reopened := described.turn turns
  have inUse : (s.step (.reopen writeBuffer)).1.store.isClosed = false := by
    cases turns with
    | reopen released loaded => exact (Store.load_fields loaded).2.2.2.1
  have stands := stands_of_describes reopened inUse
  have recovered : (l.enter (.reopen writeBuffer)).recovered = l.current := l.recovered_sync
  rw [show Event.effect ⟨.reopen writeBuffer, .status status⟩ = .reopen writeBuffer from rfl,
    recovered] at stands
  exact stands

/-- After a crash nothing is counted, and another crash would find the same. -/
theorem stands_of_crash : (s.step .crash).1.Stands 0 l.recovered := by
  have readable : s.store.durable.applyIndex = .ok l.recovered.position := by
    rw [described.durable]
    exact l.recovered.recorded
  have answer : (s.step .crash).2 = .status _ := (crash_of_readable readable).2
  have plain : Step.isPlain .crash = true := rfl
  have turns := s.step_turns plain
  rw [answer, ← openings] at turns
  have crashed := described.turn turns
  have inUse : (s.step .crash).1.store.isClosed = false := by
    cases turns with
    | crash loaded => exact (Store.load_fields loaded).2.2.2.1
  exact stands_of_describes crashed inUse

end Described

end Session

/-- **The write buffer bounds what a crash can lose.** From a store that was just opened, at every
moment `s'` of every run, let `l` be the ledger of the events so far. A crash discards the commits
since the last durable point, `l.volatile`, and their payload is below the write buffer. While the
store is in use it counts just this payload, and what every operation makes of the count is told by
`Session.Counts`. An opening, also after a crash, starts to count from zero. -/
theorem write_buffer_bounds_loss {s s' : Session} {origin : Commit} {w : UInt64}
    {trace : List Event} (opened : Store.load s.store.directory origin.table w = .ok s.store)
    (course : s.Course trace s') :
    let l := (Ledger.opened origin w s.writeBuffer).follow trace
    l.writeBuffer = s'.store.writeBuffer ∧ l.WithinBuffer ∧
      l.history.drop (l.durable.length + 1) = l.volatile ∧ s'.Recovers l.recovered ∧
      (s'.store.isClosed = false → s'.Counts l) ∧
      (∀ writeBuffer status, (s'.step (.reopen writeBuffer)).2 = .status status →
        (s'.step (.reopen writeBuffer)).1.Stands 0 l.current) ∧
      (s'.step .crash).1.Stands 0 l.recovered := by
  intro l
  have start := Ledger.opened_describes opened s.writeBuffer
  obtain ⟨described, openings⟩ := course.described start rfl
  have within : (Ledger.opened origin w s.writeBuffer).WithinBuffer :=
    Ledger.withinBuffer_of_settled rfl
  exact ⟨described.writeBuffer.symm, within.follow trace, l.history_drop_durable,
    described.recovers, Session.counts_of_describes described,
    fun _ _ => Session.stands_of_reopen described openings,
    Session.stands_of_crash described openings⟩

/-- Four octets are counted below a write buffer of five, a scan and a refused write among the
steps; the fifth, of a deletion under a key that holds nothing, makes all commits durable. -/
theorem write_buffer_reached_by_deletion :
    let s := Session.start "/data" 5
    let steps : List Step :=
      [.putBytes [7] [1, 2], .scan none (.bytes [] [9]) {} [.deleteBytes [8]],
        .putBytesIfAbsent [7] [3]]
    Store.load s.store.directory Commit.empty.table 5 = .ok s.store ∧ Step.AreOperations steps ∧
      (s.run steps).1.store.unsynced = 4 ∧
      ((s.run steps).1.step (.deleteBytes [9])).1.store.unsynced = 0 := by
  intro s steps
  have opened : Store.load s.store.directory Commit.empty.table 5 = .ok s.store := rfl
  have operations : Step.AreOperations steps := by
    simp [steps, Step.AreOperations, Step.IsOperation]
  have course : s.Course _ (s.run steps).1 := Session.Course.run_extends steps operations .start
  obtain ⟨-, -, -, -, counts, -, -⟩ := write_buffer_bounds_loss opened course
  have counted := counts rfl
  have fifth := counted.reached (.deleteBytes [9]) rfl (by decide)
  exact ⟨opened, operations, counted.now.counted, fifth.counted⟩

end FileCatalog
