import FileCatalog.Proofs.Isolation
import FileCatalog.Proofs.Recovery

/-!
# The entry of the log position

The log position stands in the table under a key that a caller can name like any other: it can be
put there, and taken away. `log_position_kept` says that this never shows. At every moment of every
run the entry is the eight octets of the position announced at the last commit, or, before the first
commit, what was found when the store was opened.

Two facts carry it. A commit records the position after its change, so a change under this very key
is overwritten in the same commit (`Commit.next_stamped`). And no table is ever met that was not
committed before: the committed and the durable table are states of the ledger, and what a snapshot
holds was the committed table at an earlier moment (`Session.Course.snapshot?_origin`). So wherever
the position is read, it is read without a fault.

Nothing is said of a table that others write to behind the back of the store.
-/

namespace FileCatalog

/-! ## Reading the position -/

/-- The octets that tell a log position are its own. -/
theorem applyIndexOf_eq_ok_iff {octets : Bytes} {position : UInt64} :
    applyIndexOf octets = .ok position ↔ octets = applyIndexOctets position := by
  constructor
  · intro read
    unfold applyIndexOf at read
    split at read
    · next length =>
      cases read
      have small : Bytes.ofBigEndian octets < UInt64.size := by
        have bound := Bytes.ofLittleEndian_lt octets.reverse
        rw [List.length_reverse, length] at bound
        exact bound
      have written := Bytes.bigEndian_ofBigEndian octets
      rw [length] at written
      rw [applyIndexOctets, UInt64.toNat_ofNat_of_lt' small, written]
    · cases read
  · rintro rfl
    exact applyIndexOf_applyIndexOctets position

/-- A table tells a log position by its eight octets; without an entry it stands at zero. -/
theorem Table.applyIndex_eq_ok_iff {t : Table} {position : UInt64} :
    t.applyIndex = .ok position ↔
      t.get? Key.applyIndex = some (applyIndexOctets position) ∨
        t.get? Key.applyIndex = none ∧ position = 0 := by
  unfold Table.applyIndex
  cases t.get? Key.applyIndex with
  | none => simp [eq_comm]
  | some octets => simp [applyIndexOf_eq_ok_iff]

/-- The entry that a state of a table begins with is absent, or eight octets. -/
theorem Commit.length_entry (c : Commit) {octets : Bytes}
    (found : c.table.get? Key.applyIndex = some octets) : octets.length = 8 := by
  rcases Table.applyIndex_eq_ok_iff.mp c.recorded with entry | ⟨none, -⟩
  · rw [found, Option.some.injEq] at entry
    rw [entry, applyIndexOctets, Bytes.length_bigEndian]
  · rw [found] at none
    cases none

/-- A commit whose table holds the octets of its position. -/
def Commit.Stamped (c : Commit) : Prop :=
  c.table.get? Key.applyIndex = some (applyIndexOctets c.position)

/-- The position is recorded after the change, so it stands whatever the change was aimed at. -/
theorem Commit.next_stamped (c : Commit) (change : Change) (position : UInt64) :
    (c.next change position).Stamped :=
  OrderedMap.get?_insert_self _ _ _

namespace Ledger

/-! ## The entry in the states of a ledger -/

/-- The commits since the first opening. -/
def commits (l : Ledger) : List Commit := l.durable ++ l.volatile

/-- What stands under the key of the log position after these commits: the octets of the position
announced at the last of them, or what was found at the first opening. -/
def entryAfter (l : Ledger) (commits : List Commit) : Option Bytes :=
  match commits.getLast? with
  | some last => some (applyIndexOctets last.position)
  | none => l.origin.table.get? Key.applyIndex

/-- Every commit since the first opening holds the octets of its position. -/
def Stamped (l : Ledger) : Prop := ∀ c ∈ l.commits, c.Stamped

/-- A sync moves commits and adds none. -/
@[simp] theorem commits_sync (l : Ledger) : l.sync.commits = l.commits := by
  simp [sync, commits]

/-- A change adds one commit, with the position announced at the time. -/
theorem commits_commit (l : Ledger) (change : Change) :
    (l.commit change).commits = l.commits ++ [l.current.next change l.announced] := by
  simp only [commit]
  split
  · rw [commits_sync]
    exact (List.append_assoc ..).symm
  · exact (List.append_assoc ..).symm

@[simp] theorem origin_enter (l : Ledger) (e : Effect) : (l.enter e).origin = l.origin := by
  cases e with
  | commit change =>
    simp only [enter, commit]
    split <;> rfl
  | _ => rfl

@[simp] theorem origin_follow (l : Ledger) (trace : List Event) :
    (l.follow trace).origin = l.origin := by
  induction trace generalizing l with
  | nil => rfl
  | cons e rest ih => exact (ih (l.enter e.effect)).trans (l.origin_enter e.effect)

/-- All that an effect can do to the commits is to add one or to forget some. -/
theorem commits_enter (l : Ledger) {e : Effect} {c : Commit} (member : c ∈ (l.enter e).commits) :
    c ∈ l.commits ∨ ∃ change, e = .commit change ∧ c = l.current.next change l.announced := by
  cases e with
  | none | announce => exact Or.inl member
  | commit change =>
    rw [enter, commits_commit, List.mem_append, List.mem_singleton] at member
    rcases member with before | rfl
    · exact Or.inl before
    · exact Or.inr ⟨change, rfl, rfl⟩
  | flush | release | reopen =>
    left
    rw [← l.commits_sync]
    exact member
  | crash =>
    rw [enter, commits, List.append_nil] at member
    exact Or.inl (List.mem_append_left _ member)

namespace Stamped

variable {l : Ledger}

/-- Every effect keeps the commits stamped. -/
theorem enter (h : l.Stamped) (e : Effect) : (l.enter e).Stamped := by
  intro c member
  rcases l.commits_enter member with before | ⟨change, -, rfl⟩
  · exact h c before
  · exact l.current.next_stamped change l.announced

/-- Every trace keeps the commits stamped. -/
theorem follow (h : l.Stamped) (trace : List Event) : (l.follow trace).Stamped := by
  induction trace generalizing l with
  | nil => exact h
  | cons e rest ih => exact ih (h.enter e.effect)

/-- The state after some commits tells by its entry the position of the last of them. -/
theorem entry_last (h : l.Stamped) {commits : List Commit} (among : commits ⊆ l.commits) :
    (commits.getLastD l.origin).table.get? Key.applyIndex = l.entryAfter commits := by
  rcases List.eq_nil_or_concat commits with rfl | ⟨before, last, rfl⟩
  · rfl
  · have stamped : last.Stamped := by
      apply h last
      apply among
      simp
    simp only [entryAfter, List.concat_eq_append, List.getLast?_concat, List.getLastD_concat]
    exact stamped

/-- What stands under the key of the position after a crash is told by the durable commits. -/
theorem entry_recovered (h : l.Stamped) :
    l.recovered.table.get? Key.applyIndex = l.entryAfter l.durable :=
  h.entry_last (List.subset_append_left l.durable l.volatile)

/-- What stands under the key of the position now is told by all commits. -/
theorem entry_current (h : l.Stamped) :
    l.current.table.get? Key.applyIndex = l.entryAfter l.commits := by
  have last : l.current = l.commits.getLastD l.origin := by
    obtain ⟨origin, durable, volatile⟩ := l
    rcases List.eq_nil_or_concat volatile with rfl | ⟨before, last, rfl⟩
    · simp [current, recovered, commits]
    · simp [current, commits]
  rw [last]
  exact h.entry_last (List.Subset.refl l.commits)

end Stamped

theorem opened_stamped (origin : Commit) (w openings : UInt64) :
    (opened origin w openings).Stamped := by
  intro c member
  cases member

end Ledger

namespace Session

/-! ## Where a snapshot that is held comes from -/

@[simp] theorem snapshot?_dropSnapshot_self (s : Session) (name : String) :
    (s.dropSnapshot name).snapshot? name = none := by
  rw [snapshot?, List.lookup_eq_none_iff]
  intro entry member
  have other := (List.mem_filter.mp member).2
  simpa [bne_iff_ne, eq_comm (a := name)] using other

/-- A snapshot that is held after a plain step was held before, or is of the store as it was
then. -/
theorem step_snapshot?_origin (s : Session) {st : Step} (plain : st.isPlain = true) {name : String}
    {view : Snapshot} (held : (s.step st).1.snapshot? name = some view) :
    s.snapshot? name = some view ∨ s.store.snapshot = .ok view := by
  by_cases dropped : Event.drops name ⟨st, (s.step st).2⟩
  · -- The name was closed, and then nothing is held under it, or it was given to a new snapshot.
    rcases (s.step_beside plain).2 with ⟨other, rfl | rfl⟩ | same
    · simp only [step] at held dropped
      cases taken : s.store.snapshot with
      | error e =>
        rw [taken] at dropped
        exact dropped.elim
      | ok fresh =>
        rw [taken] at held dropped
        cases (show other = name from dropped)
        have found : some fresh = some view := List.lookup_cons_self.symm.trans held
        rw [Option.some.inj found]
        exact Or.inr rfl
    · simp only [step] at held dropped
      cases found : s.snapshot? other with
      | none =>
        rw [found] at dropped
        exact dropped.elim
      | some old =>
        rw [found] at held dropped
        cases (show other = name from dropped)
        rw [snapshot?_dropSnapshot_self] at held
        cases held
    · left
      rw [snapshot?, ← same]
      exact held
  · left
    rw [← s.step_snapshot? plain dropped]
    exact held

/-- A snapshot that is held was held at the start of the course, or its table was the committed one
at an earlier moment. -/
theorem Course.snapshot?_origin {l : Ledger} {s s' : Session} {trace : List Event}
    (course : s.Course trace s') (h : l.Describes s.store) (openings : l.openings = s.writeBuffer)
    {name : String} {view : Snapshot} (held : s'.snapshot? name = some view) :
    s.snapshot? name = some view ∨
      ∃ before, before <+: trace ∧ view.table = (l.follow before).current.table := by
  induction course with
  | start => exact Or.inl held
  | @step trace s' before st plain ih =>
    rcases s'.step_snapshot?_origin plain held with old | fresh
    · rcases ih old with first | ⟨earlier, reached, table⟩
      · exact Or.inl first
      · exact Or.inr ⟨earlier, reached.trans (List.prefix_append _ _), table⟩
    · refine Or.inr ⟨trace, List.prefix_append _ _, ?_⟩
      obtain ⟨described, -⟩ := before.described h openings
      cases released : s'.store.isClosed with
      | true =>
        rw [Store.snapshot_of_released released] at fresh
        cases fresh
      | false =>
        rw [Store.snapshot_of_inUse released, Except.ok.injEq] at fresh
        rw [← fresh]
        exact described.committed
  | scanning before directories ih => exact ih held

/-! ## Where the position is read -/

/-- All places where the position is read agree with the ledger, and none meets a fault of the
position: the entry of the committed and of the durable table, the position that the store tells of
its table, that of a snapshot taken now, and those of an opening and of a crash. -/
structure TellsPosition (s : Session) (l : Ledger) : Prop where
  committed : s.store.committed.get? Key.applyIndex = l.entryAfter l.commits
  durable : s.store.durable.get? Key.applyIndex = l.entryAfter l.durable
  persisted : s.store.persistedIndex =
    if s.store.isClosed then .error .closed else .ok l.current.position
  snapshot : ∀ view, s.store.snapshot = .ok view →
    s.store.persistedIndex = .ok l.current.position ∧ view.applyIndex = .ok l.current.position
  reopened : ∀ writeBuffer, (s.step (.reopen writeBuffer)).2 =
    if s.isLocked then .failed (.open s.store.directory lockedCause)
    else .status
      { directory := s.store.directory, isClosed := false, applyIndex := l.current.position,
        persisted := .ok l.current.position, unsynced := 0 }
  crashed : s.Recovers l.recovered

end Session

namespace Ledger.Describes

variable {l : Ledger} {s : Session}

/-- The position that a store reads back is that of its last commit. -/
theorem persistedIndex (h : l.Describes s.store) :
    s.store.persistedIndex =
      if s.store.isClosed then .error .closed else .ok l.current.position := by
  unfold Store.persistedIndex
  cases released : s.store.isClosed with
  | true =>
    rw [Store.table_of_released released]
    rfl
  | false =>
    rw [Store.table_of_inUse released, h.committed]
    exact l.current.recorded

/-- An opening is refused while the directory is in use; otherwise all commits are found. -/
theorem reopen (h : l.Describes s.store) (writeBuffer : Option UInt64) :
    (s.step (.reopen writeBuffer)).2 =
      if s.isLocked then .failed (.open s.store.directory Session.lockedCause)
      else .status
        { directory := s.store.directory, isClosed := false, applyIndex := l.current.position,
          persisted := .ok l.current.position, unsynced := 0 } := by
  rw [Session.step]
  unfold Session.reopen
  cases locked : s.isLocked with
  | true => rfl
  | false =>
    have all : s.store.durable = l.current.table := by
      have settled := h.settled (Session.isClosed_of_not_isLocked locked)
      rw [h.durable, current_of_settled settled]
    have found : s.store.durable.applyIndex = .ok l.current.position := by
      rw [all]
      exact l.current.recorded
    simp only [Store.load, found]
    rw [← found]
    rfl

/-- A stamped ledger settles what is read at every one of these places. -/
theorem tellsPosition (h : l.Describes s.store) (stamped : l.Stamped) : s.TellsPosition l where
  committed := by
    rw [h.committed]
    exact stamped.entry_current
  durable := by
    rw [h.durable]
    exact stamped.entry_recovered
  persisted := h.persistedIndex
  snapshot view taken := by
    cases released : s.store.isClosed with
    | true =>
      rw [Store.snapshot_of_released released] at taken
      cases taken
    | false =>
      rw [Store.snapshot_of_inUse released, Except.ok.injEq] at taken
      constructor
      · rw [h.persistedIndex, released]
        rfl
      · rw [← taken, Snapshot.applyIndex, h.committed]
        exact l.current.recorded
  reopened := h.reopen
  crashed := h.recovers

end Ledger.Describes

/-- **The entry of the log position cannot be damaged.** From a store that was just opened, at every
moment `s'` of every run, let `l` be the ledger of the events so far. The entry of the committed and
of the durable table is the eight octets of the position announced at the last commit that the table
contains; where it contains none, it is what was found at the opening, nothing or eight octets.
Wherever the position is read it is found: by the store, by an opening, after a crash, and in every
snapshot. A snapshot that is held has the entry of an earlier moment of the run, unless it was held
before the run began. -/
theorem log_position_kept {s s' : Session} {origin : Commit} {w : UInt64} {trace : List Event}
    (opened : Store.load s.store.directory origin.table w = .ok s.store)
    (course : s.Course trace s') :
    let ledger := (Ledger.opened origin w s.writeBuffer).follow
    let l := ledger trace
    l.origin = origin ∧ s'.store.applyIndex = l.announced ∧ s'.TellsPosition l ∧
      (∀ octets, origin.table.get? Key.applyIndex = some octets → octets.length = 8) ∧
      ∀ name view, s'.snapshot? name = some view →
        s.snapshot? name = some view ∨
          ∃ before, before <+: trace ∧
            view.get? Key.applyIndex = (ledger before).entryAfter (ledger before).commits ∧
            view.applyIndex = .ok (ledger before).current.position := by
  intro ledger l
  have start := Ledger.opened_describes opened s.writeBuffer
  have stamped := fun events => (Ledger.opened_stamped origin w s.writeBuffer).follow events
  obtain ⟨described, -⟩ := course.described start rfl
  refine ⟨Ledger.origin_follow _ trace, described.announced,
    described.tellsPosition (stamped trace), fun octets => origin.length_entry, ?_⟩
  intro name view held
  rcases course.snapshot?_origin start rfl held with first | ⟨before, reached, table⟩
  · exact Or.inl first
  · refine Or.inr ⟨before, reached, ?_, ?_⟩
    · rw [Snapshot.get?, table]
      exact (stamped before).entry_current
    · rw [Snapshot.applyIndex, table]
      exact (ledger before).current.recorded

/-- Three octets put under the key of the log position, their deletion, and an empty value put in
their place leave the announced position there. -/
theorem log_position_kept_overwritten :
    let s := Session.start "/data" 100
    let steps : List Step :=
      [.setApplyIndex 7, .putBytes Key.applyIndex [1, 2, 3], .deleteBytes Key.applyIndex,
        .putBytesIfAbsent Key.applyIndex []]
    Store.load s.store.directory Commit.empty.table 100 = .ok s.store ∧ Step.AreOperations steps ∧
      (s.run steps).1.store.committed.get? Key.applyIndex = some [0, 0, 0, 0, 0, 0, 0, 7] ∧
      (s.run steps).1.store.persistedIndex = .ok 7 := by
  intro s steps
  have opened : Store.load s.store.directory Commit.empty.table 100 = .ok s.store := rfl
  have operations : Step.AreOperations steps := by
    simp [steps, Step.AreOperations, Step.IsOperation]
  have course : s.Course _ (s.run steps).1 := Session.Course.run_extends steps operations .start
  obtain ⟨-, -, tells, -⟩ := log_position_kept opened course
  have entry : (s.run steps).1.store.committed.get? Key.applyIndex = some (applyIndexOctets 7) :=
    tells.committed
  refine ⟨opened, operations, ?_, ?_⟩
  · rw [entry]
    decide
  · rw [tells.persisted]
    rfl

end FileCatalog
