import FileCatalog.Session.Step
import FileCatalog.Store.Records

/-!
# Sessions

A session is the use of a store over time: the store itself, the snapshots that are held of it
under names, and the scans under way. `Session.step` performs one `Step` and answers it with a
`Reply`; `Session.run` performs steps in turn.

A directory is open once. It stays locked while its store is not released, while a snapshot of it
is held, and while a scan of it is under way. An opening that is refused leaves everything as it
was.

A crash leaves what is durable. It is played out on the files as they are at that moment: they
become the files of a directory of their own, which is opened in place of the old one.

A scan can have steps of its own. They run inside its first visit, on the session as it is then,
and cannot change what the scan offers.
-/

namespace FileCatalog

/-- The use of a store over time. -/
structure Session where
  base : String
  /-- The write buffer of openings that name none. -/
  writeBuffer : UInt64
  store : Store
  /-- The snapshots that are held, by name. -/
  snapshots : List (String × Snapshot) := []
  /-- The directories that scans under way read. -/
  scanning : List String := []
  crashes : Nat := 0
  /-- The directories left behind, with the tables in their files. -/
  left : List (String × Table) := []

namespace Session

/-- A session on a directory that holds nothing yet. -/
def start (base : String) (writeBuffer : UInt64) : Session where
  base := base
  writeBuffer := writeBuffer
  store := .fresh s!"{base}/store" writeBuffer

/-- What the store says of itself. -/
def status (s : Session) : Status where
  directory := s.store.directory
  isClosed := s.store.isClosed
  applyIndex := s.store.applyIndex
  persisted := s.store.persistedIndex
  unsynced := s.store.unsynced

/-- The session with its store replaced, and the reply. -/
def withStore (s : Session) (store : Store) (reply : Reply) : Session × Reply :=
  ({ s with store }, reply)

/-- The session after an operation on the store; one that fails changes nothing. -/
def update {α : Type} (s : Session) (store : α → Store) (reply : α → Reply) :
    Except StoreError α → Session × Reply
  | .ok a => s.withStore (store a) (reply a)
  | .error e => (s, .failed e)

/-! ## Opening -/

def lockedCause : String := "Database already open. Cannot acquire lock."

/-- Whether the directory of the store is still in use. -/
def isLocked (s : Session) : Bool :=
  let directory := s.store.directory
  !s.store.isClosed || s.snapshots.any (·.2.directory = directory) || directory ∈ s.scanning

/-- Opens the directory of the store again, unless it is in use. -/
def reopen (s : Session) (writeBuffer : Option UInt64) : Session × Reply :=
  let opened :=
    if s.isLocked then .error (.open s.store.directory lockedCause)
    else Store.load s.store.directory s.store.durable (writeBuffer.getD s.writeBuffer)
  match opened with
  | .ok store =>
    let s := { s with store }
    (s, .status s.status)
  | .error e => (s, .failed e)

/-- Opens what is durable as a directory of its own, and releases the store. -/
def crash (s : Session) : Session × Reply :=
  let crashes := s.crashes + 1
  let directory := s!"{s.base}/crash{crashes}"
  let old := s.store.release
  let s' := { s with store := old, crashes }
  match Store.load directory s.store.durable s.writeBuffer with
  | .ok store =>
    let s' := { s' with store, left := (old.directory, old.durable) :: s.left }
    (s', .status s'.status)
  | .error e => ({ s' with left := (directory, s.store.durable) :: s.left }, .failed e)

/-- Writes to the files of the directory, which must not be in use. -/
def poke (s : Session) (key : Bytes) (value : Option Bytes) : Session × Reply :=
  if s.isLocked then (s, .failed (.open s.store.directory lockedCause))
  else
    let t :=
      match value with
      | some octets => s.store.durable.insert key octets
      | none => s.store.durable.erase key
    s.withStore { s.store with committed := t, durable := t } .done

/-- The directories of the session, with the tables that their files hold once the store is
released. -/
def directories (s : Session) : List (String × Table) :=
  (s.store.directory, s.store.release.durable) :: s.left

/-! ## Snapshots -/

/-- The snapshot that is held under a name. -/
def snapshot? (s : Session) (name : String) : Option Snapshot := s.snapshots.lookup name

/-- The session without the snapshots of a name. -/
def dropSnapshot (s : Session) (name : String) : Session :=
  { s with snapshots := s.snapshots.filter (·.1 ≠ name) }

/-- Answers from a snapshot, if one is held under the name. -/
def askSnapshot (s : Session) (name : String) (answer : Snapshot → Reply) : Session × Reply :=
  match s.snapshot? name with
  | some view => (s, answer view)
  | none => (s, .noSnapshot name)

end Session

/-! ## Scanning -/

namespace Target

variable {σ : Type}

/-- Offers what the target stands for in a snapshot. -/
def onSnapshot (t : Target) (view : Snapshot) (visit : Scan.Visitor σ Item (ScanFault Nat))
    (state : σ) : σ × Option (ScanFault Nat) :=
  match t with
  | bytes first last => view.rangeBytes first last (fun v a => visit v (.value a)) state
  | values c => view.rangeCollection c (fun v a => visit v (.value a)) state
  | records c => view.scan c (fun v r => visit v (.record c r)) state
  | between c first last => view.rangeRecords c first last (fun v r => visit v (.record c r)) state
  | children parent => view.children parent (fun v d => visit v (.record .dentry d)) state

/-- Offers what the target stands for in a store as it is committed now. -/
def onStore (t : Target) (s : Store) (visit : Scan.Visitor σ Item (ScanFault Nat))
    (state : σ) : σ × Option (ScanFault Nat) :=
  match t with
  | bytes first last => s.rangeBytes first last (fun v a => visit v (.value a)) state
  | between c first last => s.range c first last (fun v r => visit v (.record c r)) state
  | children parent => s.children parent (fun v d => visit v (.record .dentry d)) state
  | t =>
    match s.snapshot with
    | .ok view => t.onSnapshot view visit state
    | .error e => (state, some (.store e))

end Target

/-- What a scan under way has gathered. -/
structure Visit where
  session : Session
  seen : List Item := []
  during : Option (List Reply) := none

namespace Session

/-- The visitor of a session: it notes each item, runs the steps of the scan inside the first visit
and ends where `halt` says. -/
def visitor (halt : Halt) (inside : Session → Session × List Reply) :
    Scan.Visitor Visit Item (ScanFault Nat) := fun v item =>
  let v := { v with seen := v.seen ++ [item] }
  let number := v.seen.length
  let v :=
    if number = 1 then
      let (session, replies) := inside v.session
      { v with session, during := some replies }
    else v
  if halt.failAt = some number then (v, .fail (.visitor number))
  else if halt.enoughAt = some number then (v, .enough)
  else (v, .more)

/-- Scans the store, or the snapshot of a name. What is scanned stays in use until the scan
ends. -/
def scan (s : Session) (view : Option String) (target : Target) (halt : Halt)
    (inside : Session → Session × List Reply) : Session × Reply :=
  let visit := visitor halt inside
  let report (outcome : Visit × Option (ScanFault Nat)) : Session × Reply :=
    let (v, fault) := outcome
    ({ v.session with scanning := s.scanning }, .scanned v.seen fault v.during)
  let reading (directory : String) : Visit :=
    { session := { s with scanning := directory :: s.scanning } }
  match view with
  | none => report (target.onStore s.store visit (reading s.store.directory))
  | some name =>
    match s.snapshot? name with
    | some view => report (target.onSnapshot view visit (reading view.directory))
    | none => (s, .noSnapshot name)

/-! ## Steps -/

mutual

/-- What a step makes of the session, and its reply. -/
def step (s : Session) : Step → Session × Reply
  | .setApplyIndex index => s.withStore (s.store.setApplyIndex index) .done
  | .status => (s, .status s.status)
  | .flush => s.update id (fun _ => .done) s.store.flush
  | .release => s.withStore s.store.release .done
  | .reopen writeBuffer => s.reopen writeBuffer
  | .crash => s.crash
  | .poke key value => s.poke key value
  | .getBytes key => (s, .ofExcept .value (s.store.getBytes key))
  | .hasKey key => (s, .ofExcept .flag (s.store.hasKey key))
  | .putBytes key value => s.update id (fun _ => .done) (s.store.putBytes key value)
  | .putBytesIfAbsent key value =>
    s.update (·.1) (fun a => .flag a.2) (s.store.putBytesIfAbsent key value)
  | .deleteBytes key => s.update id (fun _ => .done) (s.store.deleteBytes key)
  | .get c id => (s, .ofExcept (.record c) (s.store.get c id))
  | .contains c id => (s, .ofExcept .flag (s.store.contains c id))
  | .put c r => s.update id (fun _ => .done) (s.store.put c r)
  | .create c r => s.update id (fun _ => .done) (s.store.create c r)
  | .delete c identity => s.update id (fun _ => .done) (s.store.delete c identity)
  | .count c => (s, .ofExcept .number (s.store.count c))
  | .takeSnapshot name =>
    match s.store.snapshot with
    | .ok view =>
      let s := s.dropSnapshot name
      ({ s with snapshots := (name, view) :: s.snapshots }, .done)
    | .error e => (s, .failed e)
  | .closeSnapshot name =>
    match s.snapshot? name with
    | some _ => (s.dropSnapshot name, .done)
    | none => (s, .noSnapshot name)
  | .snapshotGet name key => s.askSnapshot name fun view => .value (view.get? key)
  | .snapshotApplyIndex name =>
    s.askSnapshot name fun view => .ofExcept (fun index => .number index.toNat) view.applyIndex
  | .snapshotCount name c => s.askSnapshot name fun view => .number (view.count c)
  | .scan view target halt during => s.scan view target halt fun inner => run inner during

/-- Performs steps in turn and gathers the answers. -/
def run (s : Session) : List Step → Session × List Reply
  | [] => (s, [])
  | first :: rest =>
    let (s, reply) := step s first
    let (s, replies) := run s rest
    (s, reply :: replies)

end

end Session

end FileCatalog
