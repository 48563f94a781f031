import FileCatalog.Proofs.Ledger

/-!
# Recovery after a crash

A crash takes a store back to its last durable point, and to the log position that was committed
there. `crash_recovers_durable_commits` says so of every moment of every run, by the ledger that a
caller can keep of the answers: the recovered table is the one after the durable commits, and the
recovered position is the one announced at the last of them. What was announced later and never
committed is forgotten, flushed or not.

The ledger decides durability by exact sums of payload. It says nothing of what a commit costs, nor
of a file system that loses what it was made to write.
-/

namespace FileCatalog

namespace Session

/-- A crash now, and opening what it leaves, gives this state: its table, and its log position both
announced and told by the table. -/
structure Recovers (s : Session) (c : Commit) : Prop where
  answer : (s.step .crash).2 = .status
    { directory := s.crashDirectory, isClosed := false, applyIndex := c.position,
      persisted := .ok c.position, unsynced := 0 }
  table : (s.step .crash).1.store.committed = c.table

end Session

namespace Ledger

theorem Describes.recovers {l : Ledger} {s : Session} (h : l.Describes s.store) :
    s.Recovers l.recovered := by
  have readable : s.store.durable.applyIndex = .ok l.recovered.position := by
    rw [h.durable]
    exact l.recovered.recorded
  obtain ⟨store, answer⟩ := Session.crash_of_readable readable
  refine ⟨answer, ?_⟩
  rw [Session.step, store]
  exact h.durable

/-- An event that is no commit leaves the last durable state and the last state among these two. -/
private theorem enter_of_no_commit {l : Ledger} {e : Effect} (quiet : ∀ c, e ≠ .commit c) :
    ((l.enter e).recovered = l.recovered ∨ (l.enter e).recovered = l.current) ∧
      ((l.enter e).current = l.recovered ∨ (l.enter e).current = l.current) := by
  cases e with
  | commit c => exact absurd rfl (quiet c)
  | none | announce => exact ⟨Or.inl rfl, Or.inr rfl⟩
  | flush | release => exact ⟨Or.inr l.recovered_sync, Or.inr l.current_sync⟩
  | reopen => exact ⟨Or.inr l.recovered_sync, Or.inr l.current_sync⟩
  | crash => exact ⟨Or.inl rfl, Or.inl rfl⟩

/-- Without commits, no state is recovered that was not committed before. -/
theorem follow_of_no_commit (l : Ledger) {trace : List Event}
    (quiet : ∀ e ∈ trace, ∀ c, e.effect ≠ .commit c) :
    ((l.follow trace).recovered = l.recovered ∨ (l.follow trace).recovered = l.current) ∧
      ((l.follow trace).current = l.recovered ∨ (l.follow trace).current = l.current) := by
  induction trace generalizing l with
  | nil => exact ⟨Or.inl rfl, Or.inr rfl⟩
  | cons e rest ih =>
    obtain ⟨recovered, current⟩ := enter_of_no_commit (l := l) (quiet e List.mem_cons_self)
    obtain ⟨later, latest⟩ := ih (l.enter e.effect) fun e he => quiet e (List.mem_cons_of_mem _ he)
    have among : ∀ c, c = (l.enter e.effect).recovered ∨ c = (l.enter e.effect).current →
        c = l.recovered ∨ c = l.current := by
      rintro c (rfl | rfl)
      · exact recovered
      · exact current
    exact ⟨among _ later, among _ latest⟩

end Ledger

/-- **A crash leaves the durable commits and their log position.** From a store that was just
opened, at every moment `s'` of every run, let `l` be the ledger of the events so far. The session
agrees with it on the committed table and the announced position. A crash recovers the state after
the `l.durable.length` durable commits, with the position announced at the last of them. The same
holds after every further run; if that commits nothing, then what was announced in it is not
recovered, whatever was flushed. -/
theorem crash_recovers_durable_commits {s s' : Session} {origin : Commit} {w : UInt64}
    {trace : List Event} (opened : Store.load s.store.directory origin.table w = .ok s.store)
    (course : s.Course trace s') :
    let l := (Ledger.opened origin w s.writeBuffer).follow trace
    s'.store.committed = l.current.table ∧ s'.store.applyIndex = l.announced ∧
      l.history[l.durable.length]? = some l.recovered ∧ s'.Recovers l.recovered ∧
      ∀ steps, Step.AreOperations steps →
        let events := Step.eventsOf steps (s'.run steps).2
        (s'.run steps).1.Recovers (l.follow events).recovered ∧
          ((∀ e ∈ events, ∀ c, e.effect ≠ .commit c) →
            (l.follow events).recovered = l.recovered ∨
              (l.follow events).recovered = l.current) := by
  intro l
  have start := Ledger.opened_describes opened s.writeBuffer
  obtain ⟨described, -⟩ := course.described start rfl
  refine ⟨described.committed, described.announced, l.history_durable, described.recovers, ?_⟩
  intro steps operations events
  have further : s.Course (trace ++ events) (s'.run steps).1 := course.run_extends steps operations
  obtain ⟨later, -⟩ := further.described start rfl
  rw [Ledger.follow_append] at later
  exact ⟨later.recovers, fun quiet => (l.follow_of_no_commit quiet).1⟩

/-- A deletion that was not flushed is undone by a crash, with the log position announced for it. -/
theorem crash_recovers_last_flush :
    let s := Session.start "/data" 100
    let steps : List Step :=
      [.setApplyIndex 5, .putBytes [7] [1, 2], .flush, .setApplyIndex 6, .deleteBytes [7]]
    Store.load s.store.directory Commit.empty.table 100 = .ok s.store ∧ Step.AreOperations steps ∧
      (s.run steps).1.Recovers (Commit.empty.next ⟨[7], some [1, 2]⟩ 5) := by
  intro s steps
  have opened : Store.load s.store.directory Commit.empty.table 100 = .ok s.store := rfl
  have operations : Step.AreOperations steps := by
    simp [steps, Step.AreOperations, Step.IsOperation]
  obtain ⟨-, -, -, -, runs⟩ := crash_recovers_durable_commits opened .start
  exact ⟨opened, operations, (runs steps operations).1⟩

end FileCatalog
