import FileCatalog.Proofs.Range

/-!
# Clients that compete

Any number of clients use one store. Each has a program, a list of accesses to single records, and
a `Schedule` says in which order the accesses of all clients take effect, one at a time.

What an access answers and leaves depends on the record under its own identity alone
(`Access.cell`), and it leaves the records under all other identities as they are. This is
`Catalog.perform_access`; all that is said here of schedules follows from it by induction. A create
of a record that is there fails, so the first of several creates wins and stays the winner until its
record is deleted (`Session.CreatesApart`). A client that shares no identity with others is answered
as if it were alone, so neither its answers nor the records in the end depend on the schedule.

`one_creator_wins` puts this together, for a store that was filled by operations on records and is
in use. Releases, openings and crashes while clients are at work are not looked at.
-/

namespace FileCatalog

/-! ## Accesses to single records -/

/-- An operation on the record under one identity. -/
inductive Access where
  | get (c : Collection) (id : c.Identity)
  | put (c : Collection) (r : c.Record)
  | create (c : Collection) (r : c.Record)
  | delete (c : Collection) (id : c.Identity)

/-- An identity in one of the collections. -/
abbrev Subject := (c : Collection) × c.Identity

namespace Access

/-- The access as an operation of the catalog. -/
def operation : Access → Catalog.Operation
  | get c id => .get c id
  | put c r => .put c r
  | create c r => .create c r
  | delete c id => .delete c id

/-- The access as a step of a session. -/
def step (a : Access) : Step := a.operation.step

/-- The identity that the access is about. -/
@[reducible] def subject : Access → Subject
  | get c id | delete c id => ⟨c, id⟩
  | put c r | create c r => ⟨c, c.identity r⟩

/-- What the access is given is of a size that its type promises, and the object key of an upload
fits the field for its length. -/
def IsBounded (a : Access) : Prop := a.operation.IsBounded ∧ Key.IsProper a.subject.1 a.subject.2

/-- What the access leaves under its identity, and its answer, by what is under its identity. -/
def cell : (a : Access) → Option a.subject.1.Record → Option a.subject.1.Record × Reply
  | get c id, r? => (r?, Catalog.recordUnder c id r?)
  | put c r, r? =>
    match Catalog.fault? c r with
    | some e => (r?, .failed e)
    | none => (some r, .done)
  | create c r, r? =>
    match Catalog.fault? c r with
    | some e => (r?, .failed e)
    | none =>
      if r?.isSome then (r?, .failed (.taken c (Key.ofRecord c r))) else (some r, .done)
  | delete .., _ => (none, .done)

/-- The access never takes the place of a record. -/
def spares : Access → Bool
  | get .. | create .. => true
  | put .. | delete .. => false

/-- A record that is there is there until it is deleted. -/
theorem cell_isSome {a : Access} {r? : Option a.subject.1.Record} (live : r?.isSome)
    (undeleted : a ≠ .delete a.subject.1 a.subject.2) : (a.cell r?).1.isSome := by
  cases a with
  | get c id => exact live
  | delete c id => exact absurd rfl undeleted
  | put c r =>
    simp only [cell]
    cases Catalog.fault? c r with
    | none => rfl
    | some e => exact live
  | create c r =>
    simp only [cell, live, if_true]
    cases Catalog.fault? c r with
    | none | some e => exact live

/-- A record that is there stays as it is under an access that takes no record's place. -/
theorem cell_of_spares {a : Access} (spares : a.spares) (r : a.subject.1.Record) :
    (a.cell (some r)).1 = some r := by
  cases a with
  | get c id => rfl
  | put c r' | delete c id => cases spares
  | create c r' =>
    simp only [cell, Option.isSome_some, if_true]
    cases Catalog.fault? c r' with
    | none | some e => rfl

/-- A create succeeds where there is no record, and nowhere else. -/
theorem cell_create_done_iff {c : Collection} {r : c.Record} {r? : Option c.Record} :
    ((create c r).cell r?).2 = .done ↔ Catalog.fault? c r = none ∧ r? = none := by
  simp only [cell]
  cases Catalog.fault? c r with
  | some e => simp
  | none => cases r? <;> simp

/-- A create fills a free identity. -/
theorem cell_create_none {c : Collection} {r : c.Record} (faultless : Catalog.fault? c r = none) :
    (create c r).cell none = (some r, .done) := by
  simp only [cell, faultless]
  rfl

/-- A create that finds a record leaves it and says that the key is taken. -/
theorem cell_create_some {c : Collection} {r : c.Record} (faultless : Catalog.fault? c r = none)
    (live : c.Record) :
    (create c r).cell (some live) = (some live, .failed (.taken c (Key.ofRecord c r))) := by
  simp only [cell, faultless]
  rfl

end Access

/-- Accesses of clients in the order in which they take effect. -/
abbrev Schedule (κ : Type) := List (κ × Access)

/-- The schedule has the program of every client, in order, and nothing else. -/
def Schedule.Interleaves {κ : Type} [DecidableEq κ] (w : Schedule κ)
    (programs : κ → List Access) : Prop :=
  ∀ k, (w.filter (·.1 = k)).map (·.2) = programs k

/-- Those of the answers to a schedule that are given to one client. -/
def Schedule.answersTo {κ : Type} [DecidableEq κ] (k : κ) (w : Schedule κ)
    (replies : List Reply) : List Reply :=
  ((w.zip replies).filter (·.1.1 = k)).map (·.2)

/-! ## What an access does to a catalog -/

namespace Catalog

/-- The record under an identity. -/
def under (cat : Catalog) (x : Subject) : Option x.1.Record := (cat.records x.1).lookup x.2

variable {cat cat' : Catalog}

theorem under_set_self (cat : Catalog) (x : Subject) (r? : Option x.1.Record) :
    under { cat with records := cat.records.set x.1 x.2 r? } x = r? :=
  cat.records.lookup_set_self x.2 r?

theorem under_set_of_ne (cat : Catalog) {x y : Subject} (different : y ≠ x)
    (r? : Option x.1.Record) :
    under { cat with records := cat.records.set x.1 x.2 r? } y = cat.under y := by
  obtain ⟨c, id⟩ := x
  obtain ⟨c', id'⟩ := y
  by_cases collection : c' = c
  · subst collection
    exact cat.records.lookup_set_of_ne id r? fun same => different (congrArg _ same)
  · simp only [under, cat.records.set_of_ne id r? collection]

/-- A fault of a record is one of its identity. -/
theorem fault?_of_identity {c : Collection} {r r' : c.Record}
    (same : c.identity r = c.identity r') : fault? c r = fault? c r' := by
  cases c with
  | inode | attributes => rfl
  | dentry =>
    have name : r.name = r'.name := congrArg DentryId.name same
    simp only [fault?, name]
  | upload =>
    have key : r.key = r'.key := congrArg UploadId.key same
    simp only [fault?, key]

/-- An access answers by what is under its identity, and changes nothing else. -/
structure Serves (cat : Catalog) (a : Access) (after : Catalog × Option Reply) : Prop where
  inUse : after.1.isClosed = false
  answer : after.2 = some (a.cell (cat.under a.subject)).2
  own : after.1.under a.subject = (a.cell (cat.under a.subject)).1
  others : ∀ x, x ≠ a.subject → after.1.under x = cat.under x

/-- An operation of the catalog does to the identity what the access says, and nothing to others. -/
theorem perform_access (inUse : cat.isClosed = false) (a : Access) :
    cat.Serves a (cat.perform a.operation) := by
  have kept : ∀ {a : Access} {reply : Reply}, a.cell (cat.under a.subject) =
      (cat.under a.subject, reply) → cat.Serves a (cat, some reply) := fun same =>
    ⟨inUse, by rw [same], by rw [same], fun _ _ => rfl⟩
  have written : ∀ {a : Access} {r? : Option a.subject.1.Record},
      a.cell (cat.under a.subject) = (r?, .done) →
        cat.Serves a ((cat.write a.subject.1 a.subject.2 r?).map id some) := by
    intro a r? same
    rw [write, inUse, if_neg Bool.false_ne_true]
    refine ⟨rfl, by rw [same]; rfl, ?_, fun x different => under_set_of_ne cat different r?⟩
    rw [same]
    exact under_set_self cat a.subject r?
  have asked : ∀ reply, cat.ask reply = reply := fun reply => by
    simp only [ask, inUse, Bool.false_eq_true, if_false]
  cases a with
  | get c id =>
    simp only [Access.operation, perform, asked]
    exact kept rfl
  | delete c id => exact written (a := .delete c id) rfl
  | put c r =>
    simp only [Access.operation, perform]
    cases fault : fault? c r with
    | some e => exact kept (by simp only [Access.cell, fault])
    | none => exact written (a := .put c r) (by simp only [Access.cell, fault])
  | create c r =>
    simp only [Access.operation, perform, asked]
    cases fault : fault? c r with
    | some e => exact kept (by simp only [Access.cell, fault])
    | none =>
      by_cases member : c.identity r ∈ cat.records c
      · have live : (cat.under ⟨c, c.identity r⟩).isSome := Finmap.lookup_isSome.mpr member
        simp only [member, if_true]
        exact kept (by simp only [Access.cell, fault, live, if_true])
      · have free : (cat.under ⟨c, c.identity r⟩).isSome = false := by
          rw [under, Finmap.lookup_eq_none.mpr member]
          rfl
        simp only [member, if_false]
        exact written (a := .create c r) (by simp only [Access.cell, fault, free]; rfl)

/-- Catalogs in use are equal if they have the same records under every identity. -/
theorem eq_of_under (inUse : cat.isClosed = false) (inUse' : cat'.isClosed = false)
    (same : ∀ x, cat.under x = cat'.under x) : cat = cat' := by
  have records : cat.records = cat'.records := by
    funext c
    refine Finmap.ext_lookup fun id => ?_
    exact same ⟨c, id⟩
  cases cat
  cases cat'
  simp_all only

/-! ## What accesses in turn do to a catalog -/

/-- The catalog after accesses in turn. -/
def after (cat : Catalog) (accesses : List Access) : Catalog :=
  accesses.foldl (fun cat a => (cat.perform a.operation).1) cat

/-- The answers to accesses in turn. -/
def answers (cat : Catalog) : List Access → List Reply
  | [] => []
  | a :: rest => (a.cell (cat.under a.subject)).2 :: answers (cat.perform a.operation).1 rest

@[simp] theorem after_append (cat : Catalog) (first second : List Access) :
    cat.after (first ++ second) = (cat.after first).after second := List.foldl_append

/-- What every access keeps is kept by all of them. -/
theorem after_keeps {Q : Catalog → Prop} {accesses : List Access}
    (each : ∀ a ∈ accesses, ∀ {cat : Catalog}, cat.isClosed = false → Q cat →
      Q (cat.perform a.operation).1) (inUse : cat.isClosed = false) (before : Q cat) :
    Q (cat.after accesses) := by
  induction accesses generalizing cat with
  | nil => exact before
  | cons a rest ih =>
    exact ih (fun a' later => each a' (List.mem_cons_of_mem _ later))
      (perform_access inUse a).inUse (each a List.mem_cons_self inUse before)

theorem after_inUse (inUse : cat.isClosed = false) (accesses : List Access) :
    (cat.after accesses).isClosed = false :=
  after_keeps (Q := fun cat => cat.isClosed = false)
    (fun a _ _ inUse _ => (perform_access inUse a).inUse) inUse inUse

section Under

variable {x : Subject} {accesses : List Access}

/-- A record that nobody deletes stays there, although others may take its place. -/
theorem after_live (inUse : cat.isClosed = false) (live : (cat.under x).isSome)
    (undeleted : ∀ a ∈ accesses, a ≠ .delete x.1 x.2) : ((cat.after accesses).under x).isSome := by
  refine after_keeps (Q := fun cat => (cat.under x).isSome) ?_ inUse live
  intro a listed cat inUse live
  have served := perform_access inUse a
  by_cases same : x = a.subject
  · subst same
    rw [served.own]
    exact Access.cell_isSome live (undeleted a listed)
  · rw [served.others x same]
    exact live

/-- A record is the same after accesses that never take its place. -/
theorem after_spared (inUse : cat.isClosed = false) {r : x.1.Record} (found : cat.under x = some r)
    (spared : ∀ a ∈ accesses, a.subject = x → a.spares) :
    (cat.after accesses).under x = some r := by
  refine after_keeps (Q := fun cat => cat.under x = some r) ?_ inUse found
  intro a listed cat inUse found
  have served := perform_access inUse a
  by_cases same : x = a.subject
  · subst same
    rw [served.own, found]
    exact Access.cell_of_spares (spared a listed rfl) r
  · rw [served.others x same]
    exact found

/-- An identity that is only read holds what it held. -/
theorem after_untouched (inUse : cat.isClosed = false)
    (reads : ∀ a ∈ accesses, a.subject = x → a = .get x.1 x.2) :
    (cat.after accesses).under x = cat.under x := by
  refine after_keeps (Q := fun cat' => cat'.under x = cat.under x) ?_ inUse rfl
  intro a listed cat' inUse same
  have served := perform_access inUse a
  by_cases subject : a.subject = x
  · have read := reads a listed subject
    rw [read] at served ⊢
    exact served.own.trans same
  · rw [served.others x (Ne.symm subject)]
    exact same

end Under

/-! ## Clients that share no identity -/

/-- The catalogs are in use and have the same records under some identities. -/
structure AlikeOn (D : Subject → Prop) (cat cat' : Catalog) : Prop where
  inUse : cat.isClosed = false
  inUse' : cat'.isClosed = false
  under : ∀ x, D x → cat.under x = cat'.under x

namespace AlikeOn

variable {D : Subject → Prop}

/-- An access to another identity makes no difference. -/
theorem skip (h : AlikeOn D cat cat') {a : Access} (apart : ¬ D a.subject) :
    AlikeOn D (cat.perform a.operation).1 cat' := by
  have served := perform_access h.inUse a
  refine ⟨served.inUse, h.inUse', fun x member => ?_⟩
  rw [served.others x fun same => apart (same ▸ member)]
  exact h.under x member

/-- Catalogs alike under some identities stay so through an access made in both. -/
theorem step (h : AlikeOn D cat cat') (a : Access) :
    AlikeOn D (cat.perform a.operation).1 (cat'.perform a.operation).1 := by
  have served := perform_access h.inUse a
  have served' := perform_access h.inUse' a
  refine ⟨served.inUse, served'.inUse, fun x hx => ?_⟩
  by_cases same : x = a.subject
  · subst same
    rw [served.own, served'.own, h.under _ hx]
  · rw [served.others x same, served'.others x same]
    exact h.under x hx

variable {κ : Type} [DecidableEq κ] {k : κ}

/-- A client that has some identities for itself is answered as if it were alone. -/
theorem alone (h : AlikeOn D cat cat') {w : Schedule κ}
    (own : ∀ e ∈ w, D e.2.subject ↔ e.1 = k) :
    AlikeOn D (cat.after (w.map (·.2))) (cat'.after ((w.filter (·.1 = k)).map (·.2))) ∧
      w.answersTo k (cat.answers (w.map (·.2))) =
        cat'.answers ((w.filter (·.1 = k)).map (·.2)) := by
  induction w generalizing cat cat' with
  | nil => exact ⟨h, rfl⟩
  | cons e rest ih =>
    obtain ⟨k', a⟩ := e
    have later := fun e listed => own e (List.mem_cons_of_mem _ listed)
    by_cases mine : k' = k
    · have member : D a.subject := (own _ List.mem_cons_self).mpr mine
      obtain ⟨alike, answers⟩ := ih (h.step a) later
      rw [List.filter_cons_of_pos (by simpa using mine)]
      refine ⟨alike, ?_⟩
      simp only [List.map_cons, Catalog.answers, h.under _ member, ← answers]
      simp [Schedule.answersTo, mine]
    · have apart : ¬ D a.subject := fun member => mine ((own _ List.mem_cons_self).mp member)
      obtain ⟨alike, answers⟩ := ih (h.skip apart) later
      rw [List.filter_cons_of_neg (by simpa using mine)]
      refine ⟨alike, ?_⟩
      rw [← answers]
      simp [Schedule.answersTo, mine, Catalog.answers]

end AlikeOn

end Catalog

/-! ## Schedules of a session -/

namespace Session

variable {κ : Type}

/-- The session after the accesses of a schedule. -/
def after (s : Session) (w : Schedule κ) : Session := (s.run (w.map (·.2.step))).1

/-- How an access is answered after a schedule. -/
def answer (s : Session) (w : Schedule κ) (a : Access) : Reply := ((s.after w).step a.step).2

/-- What the creates of a schedule do to each other. -/
structure CreatesApart (s : Session) (w : Schedule κ) : Prop where
  /-- Between two creates of one identity that succeed it is deleted. -/
  deleted : ∀ {before between after : Schedule κ} {k k' : κ} {c : Collection} {r r' : c.Record},
    w = before ++ (k, .create c r) :: (between ++ (k', .create c r') :: after) →
      c.identity r = c.identity r' → s.answer before (.create c r) = .done →
        s.answer (before ++ (k, .create c r) :: between) (.create c r') = .done →
          ∃ e ∈ between, e.2 = .delete c (c.identity r)
  /-- A create of an identity that has a record is refused and changes nothing. -/
  taken : ∀ {before after : Schedule κ} {k : κ} {c : Collection} {r live : c.Record},
    w = before ++ (k, .create c r) :: after →
      s.answer before (.get c (c.identity r)) = .record c live →
        (s.after before).step (.create c r) =
          (s.after before, .failed (.taken c (Key.ofRecord c r)))
  /-- Of an identity that has no record and is written by creates alone, the first create wins, all
  others are refused, and its record is what is read from then on. -/
  winner : ∀ {c : Collection} {id : c.Identity},
    s.answer ([] : Schedule κ) (.get c id) = .failed (.missing c (Key.of c id)) →
      (∀ e ∈ w, e.2.subject = ⟨c, id⟩ → e.2 = .get c id ∨
        ∃ r, e.2 = .create c r ∧ Store.checkRecord c r = .ok ()) →
        (∃ e ∈ w, e.2.subject = ⟨c, id⟩ ∧ e.2 ≠ .get c id) →
          ∃ before k r after, w = before ++ (k, .create c r) :: after ∧ c.identity r = id ∧
            (∀ e ∈ before, e.2.subject = ⟨c, id⟩ → e.2 = .get c id) ∧
            s.answer before (.create c r) = .done ∧
            ∀ between k' a rest, after = between ++ (k', a) :: rest →
              let reply := s.answer (before ++ (k, .create c r) :: between) a
              (∀ r', a = .create c r' → c.identity r' = id →
                reply = .failed (.taken c (Key.ofRecord c r'))) ∧
              (a = .get c id → reply = .record c r)

end Session

namespace Catalog

/-- `get` answers with a record exactly if that record is there. -/
theorem recordUnder_eq_record_iff {c : Collection} {id : c.Identity} {r? : Option c.Record}
    {r : c.Record} : recordUnder c id r? = .record c r ↔ r? = some r := by
  cases r? <;> simp [recordUnder]

/-- `get` answers that a record is missing exactly if none is there. -/
theorem recordUnder_eq_missing_iff {c : Collection} {id : c.Identity} {r? : Option c.Record} :
    recordUnder c id r? = .failed (.missing c (Key.of c id)) ↔ r? = none := by
  cases r? <;> simp [recordUnder]

/-- The record stands under its own identity and was accepted. -/
def Accepted (c : Collection) (id : c.Identity) (r : c.Record) : Prop :=
  c.identity r = id ∧ fault? c r = none

/-- What is under an identity has the identity, and so no other record of it has a fault. -/
theorem fault?_of_live {cat : Catalog} (accepted : cat.records.Each Accepted) {c : Collection}
    {r live : c.Record} (found : cat.under ⟨c, c.identity r⟩ = some live) : fault? c r = none := by
  obtain ⟨identity, faultless⟩ := accepted found
  rw [← faultless]
  exact fault?_of_identity identity.symm

/-- Records of accepted form stay the only ones. -/
theorem after_accepted {cat : Catalog} (accepted : cat.records.Each Accepted)
    (accesses : List Access) : (cat.after accesses).records.Each Accepted := by
  induction accesses generalizing cat with
  | nil => exact accepted
  | cons a rest ih => exact ih (perform_each (fun faultless => ⟨rfl, faultless⟩) accepted _)

namespace Represents

variable {cat : Catalog} {s : Session} {κ : Type} {w : Schedule κ}

/-- Bounded accesses of a session are answered as the catalog answers them, and keep it represented.
-/
theorem accesses (h : cat.Represents s) (inUse : cat.isClosed = false) {accesses : List Access}
    (bounded : ∀ a ∈ accesses, a.IsBounded) :
    (cat.after accesses).Represents (s.run (accesses.map Access.step)).1 ∧
      (s.run (accesses.map Access.step)).2 = cat.answers accesses := by
  induction accesses generalizing cat s with
  | nil => exact ⟨h, rfl⟩
  | cons a rest ih =>
    have served := perform_access inUse a
    obtain ⟨next, answer, -⟩ := h.perform (bounded a List.mem_cons_self).1
    obtain ⟨last, answers⟩ :=
      ih next served.inUse fun a' later => bounded a' (List.mem_cons_of_mem _ later)
    exact ⟨last, congrArg₂ List.cons (answer _ served.answer) answers⟩

/-- A schedule leaves the session representing what its accesses leave of the catalog. -/
theorem after (h : cat.Represents s) (inUse : cat.isClosed = false)
    (bounded : ∀ e ∈ w, e.2.IsBounded) :
    (cat.after (w.map (·.2))).Represents (s.after w) := by
  have each : ∀ a ∈ w.map (·.2), a.IsBounded := List.forall_mem_map.mpr bounded
  have represented := (h.accesses inUse each).1
  rw [List.map_map] at represented
  exact represented

/-- What an access would be answered after a schedule is told by the record under its identity. -/
theorem answer_eq (h : cat.Represents s) (inUse : cat.isClosed = false)
    (bounded : ∀ e ∈ w, e.2.IsBounded) {a : Access} (fits : a.IsBounded) :
    s.answer w a = (a.cell ((cat.after (w.map (·.2))).under a.subject)).2 := by
  obtain ⟨-, answer, -⟩ := (h.after inUse bounded).perform fits.1
  exact answer _ (perform_access (after_inUse inUse _) a).answer

end Represents

end Catalog

/-- A create that fails changes nothing. -/
theorem Session.step_create_failed {s : Session} {c : Collection} {r : c.Record} {e : StoreError}
    (failed : (s.step (.create c r)).2 = .failed e) :
    s.step (.create c r) = (s, .failed e) := by
  rw [step] at failed ⊢
  cases made : s.store.create c r with
  | error e' =>
    rw [made] at failed
    cases failed
    rfl
  | ok store =>
    rw [made] at failed
    cases failed

namespace Catalog

variable {cat : Catalog} {κ : Type}

/-- A create that succeeds puts its record where there was none. -/
theorem under_create {c : Collection} {r : c.Record} (inUse : cat.isClosed = false)
    (done : ((Access.create c r).cell (cat.under ⟨c, c.identity r⟩)).2 = .done) :
    (cat.perform (.create c r)).1.under ⟨c, c.identity r⟩ = some r := by
  obtain ⟨faultless, free⟩ := Access.cell_create_done_iff.mp done
  have own := (perform_access inUse (.create c r)).own
  rw [free, Access.cell_create_none faultless] at own
  exact own

/-- A record that the store checks without complaint is without fault in the catalog. -/
theorem fault?_of_checked {c : Collection} {r : c.Record}
    (checked : Store.checkRecord c r = .ok ()) : fault? c r = none := by
  rw [checkRecord_eq] at checked
  cases fault : fault? c r with
  | none => rfl
  | some e =>
    rw [fault] at checked
    cases checked

/-- Of the accesses that write to an identity one is the first; before it the identity is only read.
-/
theorem exists_first_write {x : Subject} {w : Schedule κ}
    (writes : ∃ e ∈ w, e.2.subject = x ∧ e.2 ≠ .get x.1 x.2) :
    ∃ before e after, w = before ++ e :: after ∧ e.2.subject = x ∧ e.2 ≠ .get x.1 x.2 ∧
      ∀ e ∈ before, e.2.subject = x → e.2 = .get x.1 x.2 := by
  induction w with
  | nil =>
    obtain ⟨e, listed, -⟩ := writes
    cases listed
  | cons e rest ih =>
    by_cases first : e.2.subject = x ∧ e.2 ≠ .get x.1 x.2
    · exact ⟨[], e, rest, rfl, first.1, first.2, fun e listed => absurd listed List.not_mem_nil⟩
    · have reads : e.2.subject = x → e.2 = .get x.1 x.2 := fun subject =>
        Classical.byContradiction fun write => first ⟨subject, write⟩
      obtain ⟨e', listed, subject, write⟩ := writes
      rcases List.mem_cons.mp listed with rfl | later
      · exact absurd ⟨subject, write⟩ first
      · obtain ⟨before, e₁, after, rfl, own, write, none⟩ := ih ⟨e', later, subject, write⟩
        refine ⟨e :: before, e₁, after, rfl, own, write, fun e' listed => ?_⟩
        rcases List.mem_cons.mp listed with rfl | later
        · exact reads
        · exact none e' later

/-! ### After a create -/

section AfterCreate

variable {before between : Schedule κ} {k : κ} {c : Collection} {r : c.Record}

/-- A schedule cut at an access: what is before it, the access, what is after it. -/
theorem after_through (cat : Catalog) (a : Access) :
    cat.after ((before ++ (k, a) :: between).map (·.2)) =
      (((cat.after (before.map (·.2))).perform a.operation).1).after (between.map (·.2)) := by
  rw [List.map_append, after_append]
  rfl

/-- After a create that succeeds there is a record until it is deleted. -/
theorem live_after_create (inUse : cat.isClosed = false)
    (done : ((Access.create c r).cell
      ((cat.after (before.map (·.2))).under ⟨c, c.identity r⟩)).2 = .done)
    (undeleted : ∀ e ∈ between, e.2 ≠ .delete c (c.identity r)) :
    ((cat.after ((before ++ (k, .create c r) :: between).map (·.2))).under
      ⟨c, c.identity r⟩).isSome := by
  have mid := after_inUse inUse (before.map (·.2))
  rw [after_through]
  refine after_live (perform_access mid (.create c r)).inUse ?_ (List.forall_mem_map.mpr undeleted)
  exact Option.isSome_of_eq_some (under_create mid done)

/-- After a create that succeeds there is its record, as long as no access replaces it. -/
theorem record_after_create (inUse : cat.isClosed = false)
    (done : ((Access.create c r).cell
      ((cat.after (before.map (·.2))).under ⟨c, c.identity r⟩)).2 = .done)
    (spared : ∀ e ∈ between, e.2.subject = ⟨c, c.identity r⟩ → e.2.spares) :
    (cat.after ((before ++ (k, .create c r) :: between).map (·.2))).under
      ⟨c, c.identity r⟩ = some r := by
  have mid := after_inUse inUse (before.map (·.2))
  rw [after_through]
  exact after_spared (perform_access mid (.create c r)).inUse (under_create mid done)
    (List.forall_mem_map.mpr spared)

end AfterCreate

/-- What holds of all entries of a schedule holds of those before one of them, and of that one. -/
private theorem forall_mem_through {P : κ × Access → Prop} {before between after : Schedule κ}
    {e e' : κ × Access} (all : ∀ x ∈ before ++ e :: (between ++ e' :: after), P x) :
    (∀ x ∈ before ++ e :: between, P x) ∧ P e' := by
  simp only [List.forall_mem_append, List.forall_mem_cons] at all ⊢
  obtain ⟨first, second, third, fourth, -⟩ := all
  exact ⟨⟨first, second, third⟩, fourth⟩

/-- In a session that represents a catalog in use, creates stay apart in every schedule. -/
theorem Represents.createsApart {s : Session} (h : cat.Represents s) (inUse : cat.isClosed = false)
    (accepted : cat.records.Each Accepted) {w : Schedule κ} (bounded : ∀ e ∈ w, e.2.IsBounded) :
    s.CreatesApart w where
  deleted := by
    intro before between after k k' c r r' split same first second
    subst split
    obtain ⟨through, fit'⟩ := forall_mem_through bounded
    obtain ⟨fits, fit⟩ := List.forall_mem_append.mp through
    rw [h.answer_eq inUse fits (List.forall_mem_cons.mp fit).1] at first
    rw [h.answer_eq inUse through fit'] at second
    have free := (Access.cell_create_done_iff.mp second).2
    -- Without a delete in between the record would still be there.
    by_contra undeleted
    have live := live_after_create (k := k) inUse first fun e listed deletes =>
      undeleted ⟨e, listed, deletes⟩
    rw [same, free] at live
    cases live
  taken := by
    intro before after k c r live split read
    subst split
    obtain ⟨fits, fit⟩ := List.forall_mem_append.mp bounded
    have fit := (List.forall_mem_cons.mp fit).1
    have lookup : (Access.get c (c.identity r)).IsBounded := ⟨fit.2, fit.2⟩
    rw [h.answer_eq inUse fits lookup] at read
    have found := recordUnder_eq_record_iff.mp read
    have faultless := fault?_of_live (after_accepted accepted _) found
    have reply := h.answer_eq inUse fits fit
    rw [found, Access.cell_create_some faultless] at reply
    exact Session.step_create_failed reply
  winner := by
    intro c id absent writes written
    obtain ⟨before, ⟨k, a⟩, after, rfl, own, write, reads⟩ := exists_first_write written
    obtain ⟨r, rfl, checked⟩ := (writes _ (by simp) own).resolve_left write
    obtain rfl : c.identity r = id := by simpa using own
    obtain ⟨fits, fit⟩ := List.forall_mem_append.mp bounded
    have fit := (List.forall_mem_cons.mp fit).1
    have lookup : (Access.get c (c.identity r)).IsBounded := ⟨fit.2, fit.2⟩
    have faultless := fault?_of_checked checked
    have free : (cat.after (before.map (·.2))).under ⟨c, c.identity r⟩ = none := by
      rw [h.answer_eq inUse (w := ([] : Schedule κ)) (by simp) lookup] at absent
      rw [after_untouched inUse (List.forall_mem_map.mpr reads)]
      exact recordUnder_eq_missing_iff.mp absent
    have wins := Access.cell_create_done_iff.mpr ⟨faultless, free⟩
    refine ⟨before, k, r, after, rfl, rfl, reads, (h.answer_eq inUse fits fit).trans wins, ?_⟩
    rintro between k' a rest rfl
    obtain ⟨through, fit'⟩ := forall_mem_through bounded
    have reply := h.answer_eq inUse through fit'
    have spared : ∀ e ∈ between, e.2.subject = ⟨c, c.identity r⟩ → e.2.spares := by
      intro e listed subject
      rcases writes e (by simp [listed]) subject with read | ⟨r', create, -⟩
      · rw [read]
        rfl
      · rw [create]
        rfl
    have kept := record_after_create (k := k) inUse wins spared
    refine ⟨?_, ?_⟩
    · rintro r' rfl same
      rw [← same] at kept
      rw [kept, Access.cell_create_some ((fault?_of_identity same).trans faultless)] at reply
      exact reply
    · rintro rfl
      rw [reply, kept]
      rfl

end Catalog

/-! ## Clients apart -/

/-- No identity is used by two clients. -/
def Apart {κ : Type} (programs : κ → List Access) : Prop :=
  ∀ {k k' : κ} {a b : Access}, a ∈ programs k → b ∈ programs k' → a.subject = b.subject → k = k'

section Apart

variable {κ : Type} [DecidableEq κ] {programs : κ → List Access} {w w' : Schedule κ} {cat : Catalog}

/-- An access of a schedule is from the program of its client. -/
theorem Schedule.Interleaves.mem_program (h : w.Interleaves programs) {e : κ × Access}
    (listed : e ∈ w) : e.2 ∈ programs e.1 := by
  rw [← h e.1]
  exact List.mem_map_of_mem (List.mem_filter.mpr ⟨listed, by simp⟩)

/-- A client apart from all others is answered as if it were alone, and leaves what it would. -/
theorem Apart.alone (apart : Apart programs) (h : w.Interleaves programs)
    (inUse : cat.isClosed = false) (k : κ) :
    Catalog.AlikeOn (fun x => ∃ a ∈ programs k, a.subject = x) (cat.after (w.map (·.2)))
        (cat.after (programs k)) ∧
      w.answersTo k (cat.answers (w.map (·.2))) = cat.answers (programs k) := by
  have same : Catalog.AlikeOn (fun x => ∃ a ∈ programs k, a.subject = x) cat cat :=
    ⟨inUse, inUse, fun _ _ => rfl⟩
  rw [← h k] at same ⊢
  refine same.alone fun e listed => ?_
  rw [h k]
  constructor
  · rintro ⟨a, mine, subject⟩
    exact (apart mine (h.mem_program listed) subject).symm
  · rintro rfl
    exact ⟨e.2, h.mem_program listed, rfl⟩

/-- Clients that are apart leave one catalog, whatever the interleaving. -/
theorem Apart.after_eq (apart : Apart programs) (h : w.Interleaves programs)
    (h' : w'.Interleaves programs) (inUse : cat.isClosed = false) :
    cat.after (w.map (·.2)) = cat.after (w'.map (·.2)) := by
  refine Catalog.eq_of_under (Catalog.after_inUse inUse _) (Catalog.after_inUse inUse _) ?_
  intro x
  by_cases used : ∃ k, ∃ a ∈ programs k, a.subject = x
  · obtain ⟨k, uses⟩ := used
    rw [(apart.alone h inUse k).1.under x uses, (apart.alone h' inUse k).1.under x uses]
  · have untouched : ∀ {w : Schedule κ}, w.Interleaves programs →
        (cat.after (w.map (·.2))).under x = cat.under x := fun h =>
      Catalog.after_untouched inUse <| List.forall_mem_map.mpr fun e listed subject =>
        absurd ⟨e.1, e.2, h.mem_program listed, subject⟩ used
    rw [untouched h, untouched h']

end Apart

/-- **Competing creators cannot both win.** Let a store be filled by operations on records and be in
use, and let clients run their programs on it. In every schedule, between two creates of an identity
that succeed there is a delete of it; a create of an identity that has a record is refused and
changes nothing; and if only creates write an identity that has no record, exactly the first of them
succeeds and its record is read from then on (`Session.CreatesApart`). If the clients share no
identity, each gets the answers that it gets alone, whatever the schedule, and all schedules leave
the same records. -/
theorem one_creator_wins {κ : Type} [DecidableEq κ] {base : String} {writeBuffer : UInt64}
    {filling : List Catalog.Operation} (filled : ∀ op ∈ filling, op.IsBounded)
    {programs : κ → List Access} (bounded : ∀ k, ∀ a ∈ programs k, a.IsBounded) :
    let s := ((Session.start base writeBuffer).run (filling.map Catalog.Operation.step)).1
    s.store.isClosed = false →
      (∀ w : Schedule κ, w.Interleaves programs → s.CreatesApart w) ∧
        (Apart programs → ∀ w : Schedule κ, w.Interleaves programs →
          (∀ k, w.answersTo k (s.run (w.map (·.2.step))).2 =
            (s.run ((programs k).map Access.step)).2) ∧
          ∀ w' : Schedule κ, w'.Interleaves programs →
            (∃ cat : Catalog, cat.Represents (s.after w) ∧ cat.Represents (s.after w')) ∧
            ∀ {c : Collection} {id : c.Identity}, Key.IsProper c id →
              s.answer w (.get c id) = s.answer w' (.get c id)) := by
  intro s running
  obtain ⟨represents, -⟩ := (Catalog.represents_start base writeBuffer).run filled
  have inUse := represents.isClosed.symm.trans running
  have empty : Catalog.empty.records.Each Catalog.Accepted := fun _ _ _ found => nomatch found
  have accepted := Catalog.run_each (fun faultless => ⟨rfl, faultless⟩) empty filling
  have fits : ∀ {w : Schedule κ}, w.Interleaves programs → ∀ e ∈ w, e.2.IsBounded :=
    fun h e listed => bounded e.1 e.2 (h.mem_program listed)
  refine ⟨fun w h => represents.createsApart inUse accepted (fits h), fun apart w h => ⟨?_, ?_⟩⟩
  · intro k
    have whole := (represents.accesses inUse (List.forall_mem_map.mpr (fits h))).2
    rw [List.map_map] at whole
    have alone := (represents.accesses inUse (bounded k)).2
    rw [alone, ← (apart.alone h inUse k).2]
    exact congrArg _ whole
  · intro w' h'
    have same := apart.after_eq h h' inUse
    refine ⟨⟨_, represents.after inUse (fits h), ?_⟩, fun {c id} proper => ?_⟩
    · rw [same]
      exact represents.after inUse (fits h')
    · have lookup : (Access.get c id).IsBounded := ⟨proper, proper⟩
      rw [represents.answer_eq inUse (fits h) lookup, represents.answer_eq inUse (fits h') lookup,
        same]

/-- Two clients that create one directory entry; and the first of them beside another that writes an
inode. -/
theorem one_creator_wins_entry :
    let program : List Access := [.create .dentry ⟨1, "a", 2, 0⟩, .get .dentry ⟨1, "a"⟩]
    let rival : Access := .create .dentry ⟨1, "a", 3, 0⟩
    let stranger : Access := .put .inode { number := 9 }
    let w : Access → Schedule Bool := fun other =>
      [(false, other), (true, .create .dentry ⟨1, "a", 2, 0⟩), (true, .get .dentry ⟨1, "a"⟩)]
    let s := Session.start "/data" 0
    s.CreatesApart (w rival) ∧
      (w stranger).answersTo true (s.run ((w stranger).map (·.2.step))).2 =
        (s.run (program.map Access.step)).2 := by
  intro program rival stranger w s
  let programs : Access → Bool → List Access := fun other k => if k then program else [other]
  have name : Text.Fits "a" := by
    unfold Text.Fits
    decide
  have inode : Collection.inode.Fits { number := 9 } := by
    constructor <;> decide
  have bounded : ∀ other, other.IsBounded → ∀ k, ∀ a ∈ programs other k, a.IsBounded := by
    intro other fits k
    cases k with
    | false => simpa [programs] using fits
    | true =>
      simp [programs, program, Access.IsBounded, Access.operation, Catalog.Operation.IsBounded,
        Collection.Fits, Key.IsProper, name]
  have interleaved : ∀ other, (w other).Interleaves (programs other) := by
    intro other k
    cases k <;> rfl
  have apart : Apart (programs stranger) := by
    intro k k' a b ha hb subject
    cases k with
    | false =>
      cases k' with
      | false => rfl
      | true =>
        obtain rfl := List.mem_singleton.mp ha
        rcases List.mem_pair.mp hb with rfl | rfl <;> cases subject
    | true =>
      cases k' with
      | true => rfl
      | false =>
        obtain rfl := List.mem_singleton.mp hb
        rcases List.mem_pair.mp ha with rfl | rfl <;> cases subject
  have filled : ∀ op ∈ ([] : List Catalog.Operation), op.IsBounded := by simp
  have contest := @one_creator_wins _ _ "/data" 0 [] filled _ (bounded rival ⟨name, trivial⟩) rfl
  have beside := @one_creator_wins _ _ "/data" 0 [] filled _ (bounded stranger ⟨inode, trivial⟩) rfl
  exact ⟨contest.1 _ (interleaved rival), (beside.2 apart _ (interleaved stranger)).1 true⟩

end FileCatalog
