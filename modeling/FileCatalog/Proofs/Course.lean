import FileCatalog.Proofs.Scan
import Mathlib.Tactic.SplitIfs

/-!
# The course of a session

A run nests: a scan carries out steps of its own inside its first visit. `Session.Course` lays a run
out flat. It is a sequence of plain steps, each with its answer, in the order in which they take
effect; between them scans begin and end, which changes nothing but the list of directories that
are read. Every moment of a run is the end of a course, the moments inside a visitor among them.

`Course.step_extends` and `Course.run_extends` say that runs are courses: the events are read off
the steps and their answers (`Step.events`), so a caller can tell them. What holds along all
courses therefore holds along all runs, and is proved by an induction without nesting.

A course is made of the operations that a caller of a store has. `Step.poke` is none of them, since
it writes to the files behind the store's back.
-/

namespace FileCatalog

/-- A step that was carried out, with its answer. -/
structure Event where
  step : Step
  reply : Reply

/-- The answer to a scan without the answers to the steps inside its first visit. -/
def Reply.outer : Reply → Reply
  | .scanned seen fault _ => .scanned seen fault none
  | reply => reply

namespace Step

/-- An operation of a caller that carries out no other steps. -/
def isPlain : Step → Bool
  | .poke .. | .scan .. => false
  | _ => true

mutual

/-- An operation of a caller, as are all steps inside it. -/
def IsOperation : Step → Prop
  | .poke .. => False
  | .scan _ _ _ during => AreOperations during
  | _ => True

/-- All of the steps are operations. -/
def AreOperations : List Step → Prop
  | [] => True
  | st :: rest => st.IsOperation ∧ AreOperations rest

end

mutual

/-- The plain steps that a step with this answer carried out. -/
def events : Step → Reply → List Event
  | .scan _ _ _ during, .scanned _ _ (some replies) => eventsOf during replies
  | .scan .., _ => []
  | st, reply => [⟨st, reply⟩]

/-- The events of steps that were answered like this. -/
def eventsOf : List Step → List Reply → List Event
  | st :: steps, reply :: replies => st.events reply ++ eventsOf steps replies
  | _, _ => []

end

end Step

namespace Session

/-! ## What a scan does to its session -/

/-- Inside a scan either no visit has happened, or the steps of the first visit were run. -/
private def Visited (start : Session) (inside : Session → Session × List Reply) (v : Visit) :
    Prop :=
  (v.seen = [] ∧ v.during = none ∧ v.session = start) ∨
    (v.seen ≠ [] ∧ v.during = some (inside start).2 ∧ v.session = (inside start).1)

/-- The first visit runs the steps, and the later ones run none. -/
private theorem visitor_visited {start : Session} {inside : Session → Session × List Reply}
    (halt : Halt) (v : Visit) (item : Item) (h : Visited start inside v) :
    Visited start inside (visitor halt inside v item).1 := by
  have verdict : ∀ w : Visit, Visited start inside w →
      Visited start inside
        (if halt.failAt = some (v.seen ++ [item]).length then
          (w, Verdict.fail (ScanFault.visitor (v.seen ++ [item]).length))
        else if halt.enoughAt = some (v.seen ++ [item]).length then (w, Verdict.enough)
        else (w, Verdict.more)).1 := by
    intro w hw
    split
    · exact hw
    · split <;> exact hw
  unfold visitor
  apply verdict
  rcases h with ⟨seen, -, session⟩ | ⟨seen, during, session⟩
  · refine Or.inr ⟨?_, ?_, ?_⟩ <;> simp [seen, session]
  · have later : (v.seen ++ [item]).length ≠ 1 := by
      have := List.length_pos_iff.mpr seen
      simp only [List.length_append, List.length_singleton]
      omega
    refine Or.inr ⟨?_, ?_, ?_⟩ <;> simp only [later, if_false]
    · simp
    · exact during
    · exact session

/-- A scan either leaves its session as it was, and then no step ran inside; or the session is the
one that the steps of the first visit left behind. -/
theorem scan_cases (s : Session) (view : Option String) (target : Target) (halt : Halt)
    (inside : Session → Session × List Reply) :
    (∃ reply, s.scan view target halt inside = (s, reply) ∧
      ∀ seen fault replies, reply ≠ .scanned seen fault (some replies)) ∨
    ∃ directory seen fault,
      s.scan view target halt inside =
        ({ (inside { s with scanning := directory :: s.scanning }).1 with scanning := s.scanning },
          .scanned seen fault
            (some (inside { s with scanning := directory :: s.scanning }).2)) := by
  -- All ways of scanning report alike, once it is known that their visitor was visited so.
  have report : ∀ (directory : String) (v : Visit) (fault : Option (ScanFault Nat)),
      Visited { s with scanning := directory :: s.scanning } inside v →
      (∃ reply, ({ v.session with scanning := s.scanning },
          Reply.scanned v.seen fault v.during) = (s, reply) ∧
        ∀ seen fault replies, reply ≠ .scanned seen fault (some replies)) ∨
      ∃ directory seen fault',
        ({ v.session with scanning := s.scanning }, Reply.scanned v.seen fault v.during) =
          ({ (inside { s with scanning := directory :: s.scanning }).1 with
              scanning := s.scanning },
            Reply.scanned seen fault'
              (some (inside { s with scanning := directory :: s.scanning }).2)) := by
    intro directory v fault h
    rcases h with ⟨seen, during, session⟩ | ⟨-, during, session⟩
    · refine Or.inl ⟨_, Prod.ext ?_ rfl, ?_⟩
      · rw [session]
      · intro seen fault replies h
        rw [during] at h
        cases h
    · refine Or.inr ⟨directory, v.seen, fault, ?_⟩
      rw [during, session]
  have first : ∀ directory, Visited { s with scanning := directory :: s.scanning } inside
      { session := { s with scanning := directory :: s.scanning } } :=
    fun directory => Or.inl ⟨rfl, rfl, rfl⟩
  unfold scan
  cases view with
  | none =>
    cases released : s.store.isClosed with
    | true =>
      simp only [Target.onStore_closed target released]
      exact report _ _ _ (first s.store.directory)
    | false =>
      simp only [Target.onStore_eq target released]
      exact report _ _ _ (Scan.present_preserves (visitor_visited halt) (first s.store.directory))
  | some name =>
    cases found : s.snapshot? name with
    | none =>
      refine Or.inl ⟨.noSnapshot name, by simp only [found], ?_⟩
      intro seen fault replies h
      cases h
    | some view =>
      simp only [found, Target.onSnapshot_eq]
      exact report _ _ _ (Scan.present_preserves (visitor_visited halt) (first view.directory))

/-! ## What a scan answers -/

/-- A visitor that is told to end nowhere asks for more each time, and notes all items. -/
private theorem present_visitor_whole (inside : Session → Session × List Reply) (v : Visit)
    (o : Offer Item) :
    let outcome := Scan.present (visitor {} inside) o.fault v o.items
    outcome.1.seen = v.seen ++ o.items ∧ outcome.2 = o.fault.map .store := by
  have tireless : Scan.Tireless (visitor {} inside) := fun _ _ => rfl
  have noted : ∀ (v : Visit) (item : Item),
      (visitor {} inside v item).1.seen = v.seen ++ [item] := by
    intro v item
    simp only [visitor]
    split_ifs <;> rfl
  rw [tireless.present_eq]
  refine ⟨?_, rfl⟩
  induction o.items generalizing v with
  | nil => exact (List.append_nil v.seen).symm
  | cons item rest ih => rw [List.foldl_cons, ih, noted, List.append_assoc, List.singleton_append]

/-- A scan of a store in use that is told to end nowhere answers with all that the table has for the
target, and with the fault behind it, if there is one. -/
theorem step_scan (s : Session) (inUse : s.store.isClosed = false) (target : Target) :
    let o := target.offer s.store.committed
    (s.step (.scan none target {} [])).2.outer = .scanned o.items (o.fault.map .store) none := by
  simp only [step, scan, Target.onStore_eq target inUse, Reply.outer]
  obtain ⟨seen, fault⟩ := present_visitor_whole (fun inner => inner.run [])
    { session := { s with scanning := s.store.directory :: s.scanning } }
    (target.offer s.store.committed)
  rw [seen, fault]
  rfl

/-- So does a scan of a snapshot, whatever has become of the store. -/
theorem step_scanSnapshot (s : Session) {name : String} {view : Snapshot}
    (held : s.snapshot? name = some view) (target : Target) :
    let o := target.offer view.table
    (s.step (.scan (some name) target {} [])).2.outer =
      .scanned o.items (o.fault.map .store) none := by
  simp only [step, scan, held, Target.onSnapshot_eq, Reply.outer]
  obtain ⟨seen, fault⟩ := present_visitor_whole (fun inner => inner.run [])
    { session := { s with scanning := view.directory :: s.scanning } } (target.offer view.table)
  rw [seen, fault]
  rfl

/-- Scans of a store in use visit what its table has for their target, as it is committed when they
begin: those that a session carries out, and those of a visitor of any kind. -/
structure ScansCommitted (s : Session) : Prop where
  answered : s.store.isClosed = false → ∀ target : Target,
    let o := target.offer s.store.committed
    (s.step (.scan none target {} [])).2.outer = .scanned o.items (o.fault.map .store) none
  visits : s.store.isClosed = false → ∀ {σ : Type} (target : Target)
    (visit : Scan.Visitor σ Item (ScanFault Nat)) (state : σ),
      let o := target.offer s.store.committed
      target.onStore s.store visit state = Scan.present visit o.fault state o.items

/-- Every scan and range of the store is one of the committed table, or fails as the store is
released. -/
theorem scansCommitted (s : Session) : s.ScansCommitted where
  answered inUse target := s.step_scan inUse target
  visits inUse _ target visit state := target.onStore_eq inUse visit state

/-! ## Courses -/

/-- The session `s` comes to another by plain steps; scans begin and end in between. -/
inductive Course (s : Session) : List Event → Session → Prop
  | start : Course s [] s
  | step {trace : List Event} {s' : Session} (before : Course s trace s') (st : Step)
      (plain : st.isPlain = true) : Course s (trace ++ [⟨st, (s'.step st).2⟩]) (s'.step st).1
  | scanning {trace : List Event} {s' : Session} (before : Course s trace s')
      (directories : List String) : Course s trace { s' with scanning := directories }

namespace Course

/-- Courses that follow one another are one course. -/
theorem trans {s s' s'' : Session} {trace more : List Event} (before : Course s trace s')
    (after : Course s' more s'') : Course s (trace ++ more) s'' := by
  induction after with
  | start => simpa using before
  | step after st plain ih =>
    rw [← List.append_assoc]
    exact ih.step st plain
  | scanning after directories ih => exact ih.scanning directories

mutual

/-- An operation goes on with the course by its events. -/
theorem step_extends (st : Step) (ops : st.IsOperation) {s s' : Session} {trace : List Event}
    (before : Course s trace s') :
    Course s (trace ++ st.events (s'.step st).2) (s'.step st).1 := by
  cases st with
  | poke => exact ops.elim
  | scan view target halt during =>
    have inner := fun directory =>
      run_extends during ops (before.scanning (directory :: s'.scanning))
    rw [Session.step]
    rcases s'.scan_cases view target halt (fun inner => inner.run during) with
      ⟨reply, scanned, silent⟩ | ⟨directory, seen, fault, scanned⟩
    · have none : (Step.scan view target halt during).events reply = [] := by
        rw [Step.events]
        intro seen fault replies h
        exact silent seen fault replies h
      rw [scanned, none, List.append_nil]
      exact before
    · rw [scanned]
      -- The end of the scan puts its directory off the list again.
      exact (inner directory).scanning s'.scanning
  | _ => exact before.step _ rfl

/-- A run goes on with a course, by the events that its answers tell. -/
theorem run_extends (steps : List Step) (ops : Step.AreOperations steps) {s s' : Session}
    {trace : List Event} (before : Course s trace s') :
    Course s (trace ++ Step.eventsOf steps (s'.run steps).2) (s'.run steps).1 := by
  cases steps with
  | nil => simpa [Session.run, Step.eventsOf] using before
  | cons st rest =>
    have next := run_extends rest ops.2 (step_extends st ops.1 before)
    rw [List.append_assoc] at next
    exact next

end

end Course

end Session

end FileCatalog
