import FileCatalog.Proofs.Effect
import Mathlib.Data.List.Induction

/-!
# Replay of a log

A replicated log is a list of entries, each a log position and a write. `Session.applyLog` is the
run without interruption: every position is announced and its write performed, in order. A
`Replayer` does the same with interruptions. Between any two operations it may flush or crash, and
after a crash it goes on with the entries whose positions are above the recovered one.

`replay_reproduces_crash_free` says that the interruptions cannot be told: whenever an entry has
been applied, the session is where the uninterrupted run is after this entry, and every answer is
one that the uninterrupted run gives to the entry.

The invariant is `Anchored`: a table is that of the uninterrupted run after some first entries, and
it tells the position that was announced then. The committed table is anchored although refused
writes announce positions that no table tells, since the state after them is also the state before
them. So the recovered position names a state from which the replay meets the same tables again.
-/

namespace FileCatalog

/-- An entry of the replicated log. -/
structure LogEntry where
  position : UInt64
  write : Write

namespace Session

/-- Announces the position of an entry and performs its write. -/
def applyEntry (s : Session) (e : LogEntry) : Session × Reply :=
  (s.step (.setApplyIndex e.position)).1.step e.write.step

/-- The session after a log is applied entry by entry, with each entry and its answer. -/
def applyLog (s : Session) : List LogEntry → Session × List (LogEntry × Reply)
  | [] => (s, [])
  | e :: rest =>
    let (s, reply) := s.applyEntry e
    let (s, answers) := s.applyLog rest
    (s, (e, reply) :: answers)

end Session

/-- A session on which a log is applied with interruptions. -/
structure Replayer where
  session : Session
  todo : List LogEntry
  /-- Whether the position of the next entry has been announced. -/
  announced : Bool := false
  answers : List (LogEntry × Reply) := []

namespace Replayer

/-- What a replayer can do next. -/
inductive Move where
  /-- Announces the position of the next entry, or performs its write. -/
  | proceed
  | flush
  /-- Crashes, opens what is left and begins behind the recovered position. -/
  | crash

/-- What a move makes of the replayer. -/
def move (log : List LogEntry) (r : Replayer) : Move → Replayer
  | .proceed =>
    match r.todo with
    | [] => r
    | e :: rest =>
      if r.announced then
        let (session, reply) := r.session.step e.write.step
        { session, todo := rest, announced := false, answers := r.answers ++ [(e, reply)] }
      else { r with session := (r.session.step (.setApplyIndex e.position)).1, announced := true }
  | .flush => { r with session := (r.session.step .flush).1 }
  | .crash =>
    let session := (r.session.step .crash).1
    { r with
      session
      todo := log.filter (session.store.applyIndex < ·.position)
      announced := false }

/-- With the position announced, the replayer writes the entry and notes its answer. -/
theorem move_proceed_announced {log : List LogEntry} {r : Replayer} {e : LogEntry}
    {rest : List LogEntry} (next : r.todo = e :: rest) (announced : r.announced = true) :
    r.move log .proceed =
      { session := (r.session.step e.write.step).1, todo := rest, announced := false,
        answers := r.answers ++ [(e, (r.session.step e.write.step).2)] } := by
  simp only [move, next, announced, if_true]

/-- At rest, the replayer announces the position of the next entry. -/
theorem move_proceed_atRest {log : List LogEntry} {r : Replayer} {e : LogEntry}
    {rest : List LogEntry} (next : r.todo = e :: rest) (announced : r.announced = false) :
    r.move log .proceed =
      { r with session := (r.session.step (.setApplyIndex e.position)).1, announced := true } := by
  simp [move, next, announced]

theorem move_proceed_done {log : List LogEntry} {r : Replayer} (next : r.todo = []) :
    r.move log .proceed = r := by
  simp only [move, next]

/-- The replayer after moves in turn. -/
def run (log : List LogEntry) (r : Replayer) (moves : List Move) : Replayer :=
  moves.foldl (move log) r

end Replayer

/-! ## The run without interruption -/

namespace Session

/-- A write goes by the committed table and the announced position of the store alone. -/
theorem step_write_congr {s s' : Session} (inUse : s.store.isClosed = false)
    (inUse' : s'.store.isClosed = false) (committed : s.store.committed = s'.store.committed)
    (position : s.store.applyIndex = s'.store.applyIndex) (w : Write) :
    (s.step w.step).1.store.committed = (s'.step w.step).1.store.committed ∧
      (s.step w.step).2 = (s'.step w.step).2 := by
  rw [step_write inUse, step_write inUse', committed]
  cases w.refusal? s'.store.committed with
  | some reply => exact ⟨committed, rfl⟩
  | none =>
    refine ⟨?_, rfl⟩
    simp only [withStore, Store.perform_committed, committed, position]

/-- What a write leaves of a store in use: it stays in use, with its announced position; the
committed table stays or tells that position; the durable one stays or becomes the committed. -/
theorem step_write_fields {s : Session} (inUse : s.store.isClosed = false) (w : Write) :
    let after := (s.step w.step).1.store
    after.isClosed = false ∧ after.applyIndex = s.store.applyIndex ∧
      (after.committed = s.store.committed ∨
        after.committed.applyIndex = .ok s.store.applyIndex) ∧
      (after.durable = s.store.durable ∨ after.durable = after.committed) := by
  intro after
  simp only [after, step_write inUse]
  cases w.refusal? s.store.committed with
  | some reply => exact ⟨inUse, rfl, Or.inl rfl, Or.inl rfl⟩
  | none =>
    simp only [withStore]
    refine ⟨by simp [inUse], by simp, Or.inr (by simp), s.store.perform_durable w.change⟩

variable (s : Session)

/-- A log in two parts is applied part by part. -/
theorem applyLog_append (xs ys : List LogEntry) :
    s.applyLog (xs ++ ys) =
      (((s.applyLog xs).1.applyLog ys).1,
        (s.applyLog xs).2 ++ ((s.applyLog xs).1.applyLog ys).2) := by
  induction xs generalizing s with
  | nil => rfl
  | cons e rest ih =>
    simp only [List.cons_append, applyLog, ih]

theorem applyLog_concat (xs : List LogEntry) (e : LogEntry) :
    s.applyLog (xs ++ [e]) =
      (((s.applyLog xs).1.applyEntry e).1,
        (s.applyLog xs).2 ++ [(e, ((s.applyLog xs).1.applyEntry e).2)]) :=
  s.applyLog_append xs [e]

variable {s}

/-- An applied entry leaves its position announced; the committed table stays or tells it. -/
theorem applyEntry_fields (inUse : s.store.isClosed = false) (e : LogEntry) :
    (s.applyEntry e).1.store.isClosed = false ∧
      (s.applyEntry e).1.store.applyIndex = e.position ∧
      ((s.applyEntry e).1.store.committed = s.store.committed ∨
        (s.applyEntry e).1.store.committed.applyIndex = .ok e.position) := by
  obtain ⟨stays, position, committed, -⟩ :=
    step_write_fields (s := (s.step (.setApplyIndex e.position)).1) inUse e.write
  exact ⟨stays, position, committed⟩

/-- Applying a log leaves the store in use. -/
theorem applyLog_inUse (inUse : s.store.isClosed = false) (xs : List LogEntry) :
    (s.applyLog xs).1.store.isClosed = false := by
  induction xs generalizing s with
  | nil => exact inUse
  | cons e rest ih => exact ih (applyEntry_fields inUse e).1

/-- On a log with ascending positions the announced position does not fall, and the entries above
it are those that are not applied yet. -/
theorem filter_above_applyLog {xs rest : List LogEntry} (inUse : s.store.isClosed = false)
    (increasing : (xs ++ rest).Pairwise (·.position < ·.position))
    (above : ∀ e ∈ xs ++ rest, s.store.applyIndex < e.position) :
    s.store.applyIndex ≤ (s.applyLog xs).1.store.applyIndex ∧
      (xs ++ rest).filter ((s.applyLog xs).1.store.applyIndex < ·.position) = rest := by
  induction xs generalizing s with
  | nil =>
    refine ⟨UInt64.le_refl _, List.filter_eq_self.mpr fun e he => ?_⟩
    exact decide_eq_true (above e he)
  | cons e xs ih =>
    obtain ⟨stays, position, -⟩ := applyEntry_fields inUse e
    obtain ⟨first, later⟩ := List.pairwise_cons.mp increasing
    obtain ⟨grown, rest⟩ := ih stays later fun e' he' => by rw [position]; exact first e' he'
    rw [position] at grown
    have passed : ¬ (s.applyLog (e :: xs)).1.store.applyIndex < e.position :=
      UInt64.not_lt.mpr grown
    refine ⟨UInt64.le_trans (UInt64.le_of_lt (above e List.mem_cons_self)) grown, ?_⟩
    rw [List.cons_append, List.filter_cons, if_neg fun h => passed (of_decide_eq_true h)]
    exact rest

/-! ## Anchored tables -/

/-- The table is that of the run without interruption after some of the first entries, and it tells
the position that was announced then. -/
def Anchored (s : Session) (done : List LogEntry) (t : Table) : Prop :=
  ∃ kept, kept <+: done ∧ t = (s.applyLog kept).1.store.committed ∧
    t.applyIndex = .ok (s.applyLog kept).1.store.applyIndex

/-- A table that is anchored behind some entries is so behind more of them. -/
theorem Anchored.mono {done more : List LogEntry} {t : Table} (h : s.Anchored done t)
    (longer : done <+: more) : s.Anchored more t := by
  obtain ⟨kept, first, same, tells⟩ := h
  exact ⟨kept, first.trans longer, same, tells⟩

/-- The committed table of the run without interruption is anchored, after refused writes too. -/
theorem anchored_applyLog (inUse : s.store.isClosed = false)
    (tells : s.store.committed.applyIndex = .ok s.store.applyIndex) (done : List LogEntry) :
    s.Anchored done (s.applyLog done).1.store.committed := by
  induction done using List.reverseRecOn with
  | nil => exact ⟨[], List.prefix_rfl, rfl, tells⟩
  | append_singleton done e ih =>
    -- A refused entry leaves a table that was anchored before it; any other anchors its own.
    obtain ⟨-, position, committed⟩ := applyEntry_fields (applyLog_inUse inUse done) e
    rcases committed with same | told
    · rw [applyLog_concat, same]
      exact ih.mono (List.prefix_append done [e])
    · refine ⟨done ++ [e], List.prefix_rfl, rfl, ?_⟩
      rw [applyLog_concat, told, position]

end Session

/-! ## The run with interruptions -/

namespace Replayer

variable {s : Session} {log : List LogEntry} {r : Replayer}

/-- The replayer is on the way of the run without interruption of `log` from `s`, behind the
entries `done`. -/
structure OnWay (s : Session) (log done : List LogEntry) (r : Replayer) : Prop where
  split : done ++ r.todo = log
  inUse : r.session.store.isClosed = false
  committed : r.session.store.committed = (s.applyLog done).1.store.committed
  /-- At rest the announced position is that of the run without interruption. -/
  atRest : r.announced = false → r.session.store.applyIndex = (s.applyLog done).1.store.applyIndex
  /-- Inside an entry it is the entry's. -/
  inside : r.announced = true → ∃ e rest, r.todo = e :: rest ∧
    r.session.store.applyIndex = e.position
  durable : s.Anchored done r.session.store.durable
  answers : ∀ a ∈ r.answers, a ∈ (s.applyLog log).2

namespace OnWay

variable {done : List LogEntry}

/-- Announcing the next position keeps the replayer on its way, inside the entry now. -/
private theorem announce (h : OnWay s log done r) {e : LogEntry} {rest : List LogEntry}
    (next : r.todo = e :: rest) :
    OnWay s log done
      { r with session := (r.session.step (.setApplyIndex e.position)).1, announced := true } where
  split := h.split
  inUse := h.inUse
  committed := h.committed
  atRest := fun rested => Bool.noConfusion rested
  inside := fun _ => ⟨e, rest, next, rfl⟩
  durable := h.durable
  answers := h.answers

/-- Performing the write of the next entry stays on the way: the run without interruption performs
it on the same table and at the same position. -/
private theorem perform (h : OnWay s log done r) (inUse : s.store.isClosed = false)
    (tells : s.store.committed.applyIndex = .ok s.store.applyIndex) {e : LogEntry}
    {rest : List LogEntry} (next : r.todo = e :: rest) (announced : r.announced = true) :
    OnWay s log (done ++ [e])
      { session := (r.session.step e.write.step).1, todo := rest, announced := false,
        answers := r.answers ++ [(e, (r.session.step e.write.step).2)] } := by
  have position : r.session.store.applyIndex = e.position := by
    obtain ⟨e', rest', next', position⟩ := h.inside announced
    rw [next] at next'
    cases next'
    exact position
  let announcing := ((s.applyLog done).1.step (.setApplyIndex e.position)).1
  have announcingInUse : announcing.store.isClosed = false := Session.applyLog_inUse inUse done
  -- Both runs are at the same table and position, so the write cannot tell them apart.
  obtain ⟨committed, answer⟩ :=
    Session.step_write_congr h.inUse announcingInUse h.committed position e.write
  obtain ⟨stays, kept, -, durable⟩ := Session.step_write_fields h.inUse e.write
  have applied := s.applyLog_concat done e
  have uninterrupted : (r.session.step e.write.step).1.store.committed =
      (s.applyLog (done ++ [e])).1.store.committed := by
    rw [applied]
    exact committed
  have split : (done ++ [e]) ++ rest = log := by rw [List.append_assoc, ← h.split, next]; rfl
  exact {
    split := split
    inUse := stays
    committed := uninterrupted
    atRest := fun _ => by
      rw [applied, (Session.applyEntry_fields (Session.applyLog_inUse inUse done) e).2.1]
      exact kept.trans position
    inside := fun inside => Bool.noConfusion inside
    durable := by
      rcases durable with same | synced
      · rw [same]
        exact h.durable.mono (List.prefix_append done [e])
      · rw [synced, uninterrupted]
        exact Session.anchored_applyLog inUse tells (done ++ [e])
    answers := by
      intro a ha
      rcases List.mem_append.mp ha with old | new
      · exact h.answers a old
      · rw [List.mem_singleton.mp new, ← split, Session.applyLog_append, applied]
        refine List.mem_append_left _ (List.mem_append_right _ ?_)
        rw [answer]
        exact List.mem_singleton.mpr rfl }

/-- A flush keeps the replayer on its way: the committed table that it makes durable is anchored. -/
private theorem flush (h : OnWay s log done r) (inUse : s.store.isClosed = false)
    (tells : s.store.committed.applyIndex = .ok s.store.applyIndex) :
    OnWay s log done { r with session := (r.session.step .flush).1 } := by
  have flushed : (r.session.step .flush).1 =
      { r.session with
        store :=
          { r.session.store with durable := r.session.store.committed, unsynced := 0 } } := by
    simp only [Session.step, Store.flush_of_inUse h.inUse]
    rfl
  rw [flushed]
  exact {
    split := h.split
    inUse := h.inUse
    committed := h.committed
    atRest := h.atRest
    inside := h.inside
    durable := by
      simp only [h.committed]
      exact Session.anchored_applyLog inUse tells done
    answers := h.answers }

/-- A crash goes back on the way, to the entries that the recovered position names. -/
private theorem crash (h : OnWay s log done r) (inUse : s.store.isClosed = false)
    (increasing : log.Pairwise (·.position < ·.position))
    (above : ∀ e ∈ log, s.store.applyIndex < e.position) :
    ∃ kept, OnWay s log kept
      { r with
        session := (r.session.step .crash).1
        todo := log.filter ((r.session.step .crash).1.store.applyIndex < ·.position)
        announced := false } := by
  -- The durable table tells the position of the entries that it was made by, and no later one.
  obtain ⟨kept, first, same, tells⟩ := h.durable
  obtain ⟨rest, split⟩ := first.trans ⟨r.todo, h.split⟩
  have store := (Session.crash_of_readable tells).1
  have opened : (r.session.step .crash).1.store = _ := store
  subst split
  obtain ⟨-, todo⟩ := Session.filter_above_applyLog inUse increasing above
  refine ⟨kept, ?_⟩
  rw [opened]
  exact {
    split := by simp only [todo]
    inUse := by rw [opened]
    committed := by rw [opened]; exact same
    atRest := fun _ => by rw [opened]
    inside := fun inside => Bool.noConfusion inside
    durable := by rw [opened]; exact ⟨kept, List.prefix_rfl, same, tells⟩
    answers := h.answers }

/-- Every move keeps the replayer on its way, behind more or fewer entries. -/
theorem move (h : OnWay s log done r) (inUse : s.store.isClosed = false)
    (tells : s.store.committed.applyIndex = .ok s.store.applyIndex)
    (increasing : log.Pairwise (·.position < ·.position))
    (above : ∀ e ∈ log, s.store.applyIndex < e.position) (m : Move) :
    ∃ done', OnWay s log done' (r.move log m) := by
  cases m with
  | proceed =>
    cases next : r.todo with
    | nil =>
      rw [move_proceed_done next]
      exact ⟨done, h⟩
    | cons e rest =>
      cases announced : r.announced with
      | true =>
        rw [move_proceed_announced next announced]
        exact ⟨done ++ [e], h.perform inUse tells next announced⟩
      | false =>
        rw [move_proceed_atRest next announced]
        exact ⟨done, h.announce next⟩
  | flush => exact ⟨done, h.flush inUse tells⟩
  | crash => exact h.crash inUse increasing above

end OnWay

/-- Twice as many proceedings as there are entries left apply all of them. -/
theorem run_proceed (log : List LogEntry) (r : Replayer) (n : Nat)
    (enough : 2 * r.todo.length ≤ n + r.announced.toNat) :
    (r.run log (List.replicate n .proceed)).todo = [] := by
  induction n generalizing r with
  | zero =>
    have atMost := r.announced.toNat_le
    have none : r.todo = [] := List.length_eq_zero_iff.mp (by omega)
    exact none
  | succ n ih =>
    rw [List.replicate_succ]
    apply ih
    cases next : r.todo with
    | nil =>
      rw [move_proceed_done next, next]
      exact Nat.zero_le _
    | cons e rest =>
      rw [next, List.length_cons] at enough
      cases announced : r.announced with
      | true =>
        rw [announced, Bool.toNat_true] at enough
        rw [move_proceed_announced next announced]
        show 2 * rest.length ≤ n + 0
        omega
      | false =>
        rw [announced, Bool.toNat_false] at enough
        rw [move_proceed_atRest next announced, next, List.length_cons, Bool.toNat_true]
        omega

/-- Moves in turn keep the replayer on its way. -/
theorem OnWay.run {done : List LogEntry} (h : OnWay s log done r) (inUse : s.store.isClosed = false)
    (tells : s.store.committed.applyIndex = .ok s.store.applyIndex)
    (increasing : log.Pairwise (·.position < ·.position))
    (above : ∀ e ∈ log, s.store.applyIndex < e.position) (moves : List Move) :
    ∃ done', OnWay s log done' (r.run log moves) := by
  induction moves generalizing r done with
  | nil => exact ⟨done, h⟩
  | cons m moves ih =>
    obtain ⟨done', next⟩ := h.move inUse tells increasing above m
    exact ih next

/-- Before the first move the replayer is at the start of the way. -/
private theorem OnWay.start (inUse : s.store.isClosed = false)
    (durable : s.store.durable = s.store.committed)
    (tells : s.store.durable.applyIndex = .ok s.store.applyIndex) :
    OnWay s log [] { session := s, todo := log } where
  split := rfl
  inUse := inUse
  committed := rfl
  atRest := fun _ => rfl
  inside := fun inside => Bool.noConfusion inside
  durable := ⟨[], List.prefix_rfl, durable, tells⟩
  answers := fun _ noAnswer => nomatch noAnswer

/-- At rest with nothing left to apply, the replayer is where the run without interruption ends. -/
private theorem OnWay.arrived {done : List LogEntry} (h : OnWay s log done r)
    (finished : r.todo = []) :
    r.announced = false ∧ r.session.store.committed = (s.applyLog log).1.store.committed ∧
      r.session.store.applyIndex = (s.applyLog log).1.store.applyIndex := by
  have atRest : r.announced = false := by
    by_contra announced
    obtain ⟨e, rest, next, -⟩ := h.inside (eq_true_of_ne_false announced)
    exact List.cons_ne_nil e rest (next.symm.trans finished)
  have whole : done = log := by rw [← h.split, finished, List.append_nil]
  subst whole
  exact ⟨atRest, h.committed, h.atRest atRest⟩

end Replayer

/-- **Replay reproduces the run without interruption.** Let a log with ascending positions, all
above that of a store that was just opened, be applied with flushes and crashes between any two
operations. When the replayer is at rest behind the first entries, `done`, the committed table and
the announced position are those of the run without interruption behind these entries; every
answer so far is one that the run without interruption gives to this entry; and without further
interruptions the replay comes to the end of the log. -/
theorem replay_reproduces_crash_free {s : Session} {origin : Table} {w : UInt64}
    {log : List LogEntry} (opened : Store.load s.store.directory origin w = .ok s.store)
    (increasing : log.Pairwise (·.position < ·.position))
    (above : ∀ e ∈ log, s.store.applyIndex < e.position) (moves : List Replayer.Move) :
    let r := Replayer.run log { session := s, todo := log } moves
    (∃ done, done ++ r.todo = log ∧
      (r.announced = false →
        r.session.store.committed = (s.applyLog done).1.store.committed ∧
          r.session.store.applyIndex = (s.applyLog done).1.store.applyIndex)) ∧
      (∀ a ∈ r.answers, a ∈ (s.applyLog log).2) ∧
      let finished := r.run log (List.replicate (2 * log.length) .proceed)
      finished.todo = [] ∧ finished.announced = false ∧
        finished.session.store.committed = (s.applyLog log).1.store.committed ∧
        finished.session.store.applyIndex = (s.applyLog log).1.store.applyIndex := by
  intro r
  obtain ⟨committed, durable, told, inUse, -⟩ := Store.load_fields opened
  have same : s.store.durable = s.store.committed := durable.trans committed.symm
  have tells : s.store.committed.applyIndex = .ok s.store.applyIndex := by
    rw [committed]
    exact told
  have start : Replayer.OnWay s log [] { session := s, todo := log } :=
    .start inUse same (by rw [same]; exact tells)
  obtain ⟨done, onWay⟩ := start.run inUse tells increasing above moves
  refine ⟨⟨done, onWay.split, fun atRest => ⟨onWay.committed, onWay.atRest atRest⟩⟩,
    onWay.answers, ?_⟩
  intro finished
  have left : r.todo.length ≤ log.length := by
    rw [← onWay.split, List.length_append]
    exact Nat.le_add_left _ _
  have ended : finished.todo = [] := Replayer.run_proceed log r (2 * log.length) (by omega)
  obtain ⟨done', arrived⟩ :=
    onWay.run inUse tells increasing above (List.replicate (2 * log.length) .proceed)
  exact ⟨ended, arrived.arrived ended⟩

/-- A log whose second entry is refused, and which is interrupted by crashes behind the second entry
and inside the third. -/
theorem replay_reproduces_refusal :
    let s := Session.start "/data" 1000
    let log : List LogEntry :=
      [⟨1, .put .dentry ⟨7, "a", 8, 0⟩⟩, ⟨2, .create .dentry ⟨7, "a", 9, 0⟩⟩,
        ⟨5, .delete .dentry ⟨7, "a"⟩⟩]
    let moves : List Replayer.Move :=
      [.proceed, .proceed, .flush, .proceed, .proceed, .crash, .proceed, .proceed, .proceed, .crash]
    (∀ e ∈ log, s.store.applyIndex < e.position) ∧
      ((Replayer.run log { session := s, todo := log } moves).run log
        (List.replicate (2 * log.length) .proceed)).session.store.committed =
        (s.applyLog log).1.store.committed := by
  intro s log moves
  have opened : Store.load s.store.directory ∅ 1000 = .ok s.store := rfl
  have increasing : log.Pairwise (·.position < ·.position) := by simp [log]
  have above : ∀ e ∈ log, s.store.applyIndex < e.position := by
    simp [log, s, Session.start, Store.fresh]
  obtain ⟨-, -, -, -, committed, -⟩ := replay_reproduces_crash_free opened increasing above moves
  exact ⟨above, committed⟩

end FileCatalog
