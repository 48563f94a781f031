import FileCatalog.OrderedMap.Lemmas
import FileCatalog.Session

/-!
# Writes

Six steps of a session can commit: writes of octets and writes of records. `Write` names them, and
`Session.step_write` says once what each of them does. Either it is refused and nothing changes, or
the store performs its `Change`: a value is put under a key or taken away, and the announced log
position goes into the same commit. Which of the two happens, and the answer, depend on the
committed table alone (`Write.refusal?`).

`Store.commit_reached` and `Store.commit_below` give the two ways in which a commit ends, durable or
not, by the exact sum of the payload; the bound on what is counted never shows, since no write
buffer is above it.
-/

namespace FileCatalog

/-! ## Log positions in tables -/

/-- A log position is read back from the octets that store it. -/
theorem applyIndexOf_applyIndexOctets (position : UInt64) :
    applyIndexOf (applyIndexOctets position) = .ok position := by
  have small : position.toNat % Bytes.capacity 8 = position.toNat :=
    Nat.mod_eq_of_lt (by simpa [Bytes.capacity] using position.toNat_lt)
  simp [applyIndexOf, applyIndexOctets, Bytes.ofBigEndian_bigEndian, small]

/-- A value put under a key, or the value under a key taken away. -/
structure Change where
  key : Bytes
  value : Option Bytes

namespace Change

/-- The octets that the change brings. -/
def payload (c : Change) : Nat := c.key.length + (c.value.getD []).length

/-- The change made in a table: the value put, or the key removed. -/
def apply (c : Change) (t : Table) : Table :=
  match c.value with
  | some octets => t.insert c.key octets
  | none => t.erase c.key

/-- The table with the change made and the log position of its commit recorded. -/
def record (c : Change) (position : UInt64) (t : Table) : Table :=
  (c.apply t).insert Key.applyIndex (applyIndexOctets position)

/-- A commit can be told its log position, also when the change was aimed at the key of it. -/
@[simp] theorem applyIndex_record (c : Change) (position : UInt64) (t : Table) :
    (c.record position t).applyIndex = .ok position := by
  simp only [record, Table.applyIndex, OrderedMap.get?_insert_self]
  exact applyIndexOf_applyIndexOctets position

/-- After a recorded change the key reads what the change says. -/
theorem get?_record_self {c : Change} (data : c.key ≠ Key.applyIndex) (position : UInt64)
    (t : Table) : (c.record position t).get? c.key = c.value := by
  rw [record, OrderedMap.get?_insert_of_ne data, apply]
  cases c.value with
  | some octets => exact t.get?_insert_self c.key octets
  | none => exact t.get?_erase_self c.key

/-- A recorded change leaves every other key of data as it was. -/
theorem get?_record_of_ne {c : Change} {key : Bytes} (data : key ≠ Key.applyIndex)
    (other : key ≠ c.key) (position : UInt64) (t : Table) :
    (c.record position t).get? key = t.get? key := by
  rw [record, OrderedMap.get?_insert_of_ne data, apply]
  cases c.value with
  | some octets => exact OrderedMap.get?_insert_of_ne other
  | none => exact OrderedMap.get?_erase_of_ne other

end Change

/-! ## Commits -/

namespace Store

/-- A commit whose payload reaches the write buffer is durable. -/
theorem commit_reached {s : Store} {payload : Nat} (t : Table)
    (reached : s.writeBuffer.toNat ≤ s.unsynced + payload) :
    s.commit t payload = { s with committed := t, durable := t, unsynced := 0 } := by
  have most : s.writeBuffer.toNat ≤ mostUnsynced := by
    have := s.writeBuffer.toNat_lt
    simp only [mostUnsynced, UInt64.size]
    omega
  have pending : s.writeBuffer.toNat ≤ min (s.unsynced + payload) mostUnsynced := by omega
  simp only [commit, pending, if_true]

/-- A commit whose payload stays below the write buffer is not durable, and its payload is counted
to the octet. -/
theorem commit_below {s : Store} {payload : Nat} (t : Table)
    (below : s.unsynced + payload < s.writeBuffer.toNat) :
    s.commit t payload = { s with committed := t, unsynced := s.unsynced + payload } := by
  have exact : min (s.unsynced + payload) mostUnsynced = s.unsynced + payload := by
    have := s.writeBuffer.toNat_lt
    simp only [mostUnsynced, UInt64.size]
    omega
  have deferred : ¬ s.writeBuffer.toNat ≤ s.unsynced + payload := by omega
  simp only [commit, exact, deferred, if_false]

/-- The store after it has committed a change. -/
def perform (s : Store) (c : Change) : Store :=
  s.commit (c.record s.applyIndex s.committed) c.payload

section Perform

variable (s : Store) (c : Change)

/-- A performed change stands in the committed table, with the announced position beside it. -/
@[simp] theorem perform_committed :
    (s.perform c).committed = c.record s.applyIndex s.committed := by
  simp only [perform, commit]
  split <;> rfl

@[simp] theorem perform_applyIndex : (s.perform c).applyIndex = s.applyIndex := by
  simp only [perform, commit]
  split <;> rfl

@[simp] theorem perform_isClosed : (s.perform c).isClosed = s.isClosed := by
  simp only [perform, commit]
  split <;> rfl

/-- A commit leaves the durable table as it was, or brings it up to the committed one. -/
theorem perform_durable :
    (s.perform c).durable = s.durable ∨ (s.perform c).durable = (s.perform c).committed := by
  simp only [perform, commit]
  split
  · exact Or.inr rfl
  · exact Or.inl rfl

end Perform

/-- A store in use hands out its committed table. -/
theorem table_of_inUse {s : Store} (inUse : s.isClosed = false) : s.table = .ok s.committed := by
  simp [table, inUse]

/-- A released store hands out no table. -/
theorem table_of_released {s : Store} (released : s.isClosed = true) :
    s.table = .error .closed := by
  simp [table, released]

/-! ### Operations on octets -/

section InUse

variable {s : Store} (inUse : s.isClosed = false)
include inUse

/-- A snapshot holds the committed table of the moment. -/
theorem snapshot_of_inUse : s.snapshot = .ok ⟨s.directory, s.committed⟩ := by
  simp only [snapshot, table_of_inUse inUse]
  rfl

/-- A raw read finds what is committed. -/
theorem getBytes_of_inUse (key : Bytes) : s.getBytes key = .ok (s.committed.get? key) := by
  simp only [getBytes, table_of_inUse inUse]
  rfl

/-- A key is there when what is committed under it is not empty. -/
theorem hasKey_of_inUse (key : Bytes) : s.hasKey key = .ok (occupied (s.committed.get? key)) := by
  simp only [hasKey, getBytes_of_inUse inUse]
  rfl

/-- A flush makes durable what is committed, and nothing is left unsynced. -/
theorem flush_of_inUse :
    s.flush = .ok { s with durable := s.committed, unsynced := 0 } := by
  simp only [flush, table_of_inUse inUse]
  rfl

/-- A raw write always succeeds. -/
theorem putBytes_of_inUse (key value : Bytes) :
    s.putBytes key value = .ok (s.perform ⟨key, some value⟩) := by
  simp only [putBytes, table_of_inUse inUse]
  rfl

/-- A raw deletion always succeeds. -/
theorem deleteBytes_of_inUse (key : Bytes) :
    s.deleteBytes key = .ok (s.perform ⟨key, none⟩) := by
  simp only [deleteBytes, table_of_inUse inUse]
  rfl

/-- A conditional write gives way to an occupied key, and writes under a free one. -/
theorem putBytesIfAbsent_of_inUse (key value : Bytes) :
    s.putBytesIfAbsent key value =
      if occupied (s.committed.get? key) then .ok (s, false)
      else .ok (s.perform ⟨key, some value⟩, true) := by
  simp only [putBytesIfAbsent, hasKey_of_inUse inUse, putBytes_of_inUse inUse]
  rfl

end InUse

section Released

variable {s : Store} (released : s.isClosed = true)
include released

theorem snapshot_of_released : s.snapshot = .error .closed := by
  simp only [snapshot, table_of_released released]
  rfl

theorem hasKey_of_released (key : Bytes) : s.hasKey key = .error .closed := by
  simp only [hasKey, getBytes, table_of_released released]
  rfl

theorem flush_of_released : s.flush = .error .closed := by
  simp only [flush, table_of_released released]
  rfl

theorem putBytes_of_released (key value : Bytes) : s.putBytes key value = .error .closed := by
  simp only [putBytes, table_of_released released]
  rfl

theorem deleteBytes_of_released (key : Bytes) : s.deleteBytes key = .error .closed := by
  simp only [deleteBytes, table_of_released released]
  rfl

theorem putBytesIfAbsent_of_released (key value : Bytes) :
    s.putBytesIfAbsent key value = .error .closed := by
  simp only [putBytesIfAbsent, hasKey_of_released released]
  rfl

end Released

/-! ### Opening -/

/-- Opening succeeds exactly on a table whose log position can be read; the store begins there, with
all of the table committed and durable. -/
theorem load_eq_ok_iff {directory : String} {t : Table} {writeBuffer : UInt64} {s : Store} :
    Store.load directory t writeBuffer = .ok s ↔
      ∃ position, t.applyIndex = .ok position ∧
        s = { directory, committed := t, durable := t, applyIndex := position, writeBuffer } := by
  unfold load
  cases t.applyIndex with
  | error e => simp
  | ok position => simp [eq_comm]

/-- What an opened store holds: the table read, both as committed and as durable, and the position
that stands in it. -/
theorem load_fields {directory : String} {t : Table} {writeBuffer : UInt64} {s : Store}
    (loaded : Store.load directory t writeBuffer = .ok s) :
    s.committed = t ∧ s.durable = t ∧ t.applyIndex = .ok s.applyIndex ∧ s.isClosed = false ∧
      s.unsynced = 0 ∧ s.writeBuffer = writeBuffer := by
  obtain ⟨position, found, rfl⟩ := load_eq_ok_iff.mp loaded
  exact ⟨rfl, rfl, found, rfl, rfl, rfl⟩

end Store

/-! ## The six writes -/

/-- A step that can commit. -/
inductive Write where
  | putBytes (key value : Bytes)
  | putBytesIfAbsent (key value : Bytes)
  | deleteBytes (key : Bytes)
  | put (c : Collection) (r : c.Record)
  | create (c : Collection) (r : c.Record)
  | delete (c : Collection) (id : c.Identity)

namespace Write

/-- The step of a session that asks for the write. -/
def step : Write → Step
  | putBytes key value => .putBytes key value
  | putBytesIfAbsent key value => .putBytesIfAbsent key value
  | deleteBytes key => .deleteBytes key
  | put c r => .put c r
  | create c r => .create c r
  | delete c id => .delete c id

/-- What the write changes if it is accepted. -/
def change : Write → Change
  | putBytes key value | putBytesIfAbsent key value => ⟨key, some value⟩
  | deleteBytes key => ⟨key, none⟩
  | put c r | create c r => ⟨Key.ofRecord c r, some (c.encode r)⟩
  | delete c id => ⟨Key.of c id, none⟩

/-- The answer to the write when it commits. -/
def success : Write → Reply
  | putBytesIfAbsent .. => .flag true
  | _ => .done

/-- The answer to the write when it commits nothing on this table. -/
def refusal? (t : Table) : Write → Option Reply
  | putBytes .. | deleteBytes _ | delete .. => none
  | putBytesIfAbsent key _ => if Store.occupied (t.get? key) then some (.flag false) else none
  | put c r =>
    match Store.checkRecord c r with
    | .ok () => none
    | .error e => some (.failed e)
  | create c r =>
    match Store.checkRecord c r with
    | .ok () =>
      if Store.occupied (t.get? (Key.ofRecord c r)) then
        some (.failed (.taken c (Key.ofRecord c r)))
      else none
    | .error e => some (.failed e)

/-- The error of the write on a released store: a record that has no key of its own is refused
first. -/
def closedError : Write → StoreError
  | put c r | create c r =>
    match Store.checkRecord c r with
    | .ok () => .closed
    | .error e => e
  | _ => .closed

end Write

namespace Session

/-- A write to a store in use is refused and changes nothing, or commits its change. -/
theorem step_write {s : Session} (inUse : s.store.isClosed = false) (w : Write) :
    s.step w.step =
      match w.refusal? s.store.committed with
      | some reply => (s, reply)
      | none => s.withStore (s.store.perform w.change) w.success := by
  cases w with
  | putBytes key value =>
    simp only [Write.step, step, Store.putBytes_of_inUse inUse]
    rfl
  | deleteBytes key =>
    simp only [Write.step, step, Store.deleteBytes_of_inUse inUse]
    rfl
  | delete c id =>
    simp only [Write.step, step, Store.delete, Store.deleteBytes_of_inUse inUse]
    rfl
  | putBytesIfAbsent key value =>
    simp only [Write.step, step, Store.putBytesIfAbsent_of_inUse inUse, Write.refusal?]
    split <;> rfl
  | put c r =>
    simp only [Write.step, step, Store.put, Write.refusal?]
    cases Store.checkRecord c r with
    | error e => rfl
    | ok _ =>
      simp only [bind, Except.bind, Store.putBytes_of_inUse inUse]
      rfl
  | create c r =>
    simp only [Write.step, step, Store.create, Write.refusal?]
    cases Store.checkRecord c r with
    | error e => rfl
    | ok _ =>
      simp only [bind, Except.bind, Store.putBytesIfAbsent_of_inUse inUse]
      by_cases taken : Store.occupied (s.store.committed.get? (Key.ofRecord c r)) = true
      · simp only [taken, if_true]
        rfl
      · simp only [taken]
        rfl

/-- On a released store a write fails and changes nothing. -/
theorem step_write_released {s : Session} (released : s.store.isClosed = true) (w : Write) :
    s.step w.step = (s, .failed w.closedError) := by
  cases w with
  | putBytes key value =>
    simp only [Write.step, step, Store.putBytes_of_released released]
    rfl
  | deleteBytes key =>
    simp only [Write.step, step, Store.deleteBytes_of_released released]
    rfl
  | delete c id =>
    simp only [Write.step, step, Store.delete, Store.deleteBytes_of_released released]
    rfl
  | putBytesIfAbsent key value =>
    simp only [Write.step, step, Store.putBytesIfAbsent_of_released released]
    rfl
  | put c r =>
    simp only [Write.step, step, Store.put, Write.closedError]
    cases Store.checkRecord c r with
    | error e => rfl
    | ok _ =>
      simp only [bind, Except.bind, Store.putBytes_of_released released]
      rfl
  | create c r =>
    simp only [Write.step, step, Store.create, Write.closedError]
    cases Store.checkRecord c r with
    | error e => rfl
    | ok _ =>
      simp only [bind, Except.bind, Store.putBytesIfAbsent_of_released released]
      rfl

end Session

end FileCatalog
