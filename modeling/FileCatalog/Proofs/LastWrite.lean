import FileCatalog.Proofs.Lifecycle

/-!
# What stands under a key

A write of octets puts two entries into the table, its own and that of the log position, and may
make commits durable that are not its own. None of this shows under another key.
`octets_stand_as_last_left` says that under every key but the reserved one stands what the last
event left there that was about this key: the value of a write that was accepted, also an empty one,
or nothing after a deletion. Writes of records are writes under the keys of their identities, so
they are among the events.

What an event leaves is read off the step and its answer (`Effect.left?`). The answer to a write of
a key that may be occupied is told by the same value: it is refused where a value that is not empty
stands, and then all of the session is as it was.

A crash is left out. It can undo what the last events have left, and which of them it undoes is a
matter of the write buffer.
-/

namespace FileCatalog

/-- What the effect leaves under a key, a value or nothing. It is `none` if the effect leaves the
key alone. -/
def Effect.left? (key : Bytes) : Effect → Option (Option Bytes)
  | .commit c => if c.key = key then some c.value else .none
  | _ => .none

/-- What stands under a key after the events of a trace: what the last of them left that left
something there, or else what stood there first. -/
def lastLeft (key : Bytes) (first : Option Bytes) (trace : List Event) : Option Bytes :=
  (trace.filterMap fun e => e.effect.left? key).getLastD first

/-- One more event leaves something under the key, or what was left before. -/
theorem lastLeft_concat (key : Bytes) (first : Option Bytes) (trace : List Event) (e : Event) :
    lastLeft key first (trace ++ [e]) = (e.effect.left? key).getD (lastLeft key first trace) := by
  unfold lastLeft
  rw [List.filterMap_append]
  cases left : e.effect.left? key with
  | none => simp [left]
  | some value => simp [left]

/-! ## One event -/

namespace Turns

variable {openings : UInt64} {s s' : Store} {e : Effect}

/-- Where a store is released, all of its commits are durable. -/
theorem settled (turns : Turns openings s e s')
    (settled : s.isClosed = true → s.durable = s.committed) :
    s'.isClosed = true → s'.durable = s'.committed := by
  intro released
  cases turns with
  | none | announce => exact settled released
  | commit inUse =>
    rw [Store.perform_isClosed, inUse] at released
    cases released
  | flush inUse => rfl
  | release =>
    unfold Store.release
    split
    · exact settled ‹_›
    · rfl
  | reopen _ loaded | crash loaded =>
    rw [(Store.load_fields loaded).1, (Store.load_fields loaded).2.1]

/-- But for a crash, a key other than that of the log position has the value that the effect leaves
there, or the value that it had. -/
theorem get?_committed (turns : Turns openings s e s')
    (settled : s.isClosed = true → s.durable = s.committed) (noCrash : e ≠ .crash) {key : Bytes}
    (data : key ≠ Key.applyIndex) :
    s'.committed.get? key = (e.left? key).getD (s.committed.get? key) := by
  cases turns with
  | none | announce | flush => rfl
  | commit inUse =>
    rename_i change
    rw [Store.perform_committed, Effect.left?]
    by_cases own : change.key = key
    · subst own
      rw [if_pos rfl, Change.get?_record_self data]
      rfl
    · rw [if_neg own, Change.get?_record_of_ne data (Ne.symm own)]
      rfl
  | release =>
    rw [Store.release_committed]
    rfl
  | reopen released loaded =>
    rw [(Store.load_fields loaded).1, settled released]
    rfl
  | crash => exact absurd rfl noCrash

end Turns

/-! ## A run of events -/

/-- After a course without crashes, a key of data reads what was left there last; a store released
by then has it durable. -/
theorem Session.Course.get?_committed {s s' : Session} {trace : List Event}
    (course : s.Course trace s') (inUse : s.store.isClosed = false)
    (noCrash : ∀ e ∈ trace, e.effect ≠ .crash) {key : Bytes} (data : key ≠ Key.applyIndex) :
    (s'.store.isClosed = true → s'.store.durable = s'.store.committed) ∧
      s'.store.committed.get? key = lastLeft key (s.store.committed.get? key) trace := by
  induction course with
  | start =>
    refine ⟨fun released => ?_, rfl⟩
    rw [inUse] at released
    cases released
  | @step trace s' before st plain ih =>
    obtain ⟨settled, value⟩ := ih fun e he => noCrash e (List.mem_append_left _ he)
    have last := noCrash ⟨st, (s'.step st).2⟩ (List.mem_append_right _ List.mem_cons_self)
    have turns := s'.step_turns plain
    refine ⟨turns.settled settled, ?_⟩
    rw [lastLeft_concat, ← value]
    exact turns.get?_committed settled last data
  | scanning before directories ih => exact ih noCrash

/-! ## Steps on octets -/

namespace Step

/-- The step writes octets under a key, makes the commits durable, or announces a log position. -/
inductive IsBytewise : Step → Prop
  | putBytes (key value : Bytes) : IsBytewise (.putBytes key value)
  | putBytesIfAbsent (key value : Bytes) : IsBytewise (.putBytesIfAbsent key value)
  | deleteBytes (key : Bytes) : IsBytewise (.deleteBytes key)
  | flush : IsBytewise .flush
  | setApplyIndex (position : UInt64) : IsBytewise (.setApplyIndex position)

/-- The key that a step on octets is aimed at. -/
def target? : Step → Option Bytes
  | .putBytes key _ | .putBytesIfAbsent key _ | .deleteBytes key => some key
  | _ => none

/-- The answer to a step on octets that did not fail. -/
def Succeeds : Step → Reply → Prop
  | .putBytesIfAbsent .., reply => ∃ written, reply = .flag written
  | _, reply => reply = .done

namespace IsBytewise

variable {st : Step}

/-- Steps on octets run nothing inside. -/
theorem isPlain (bytewise : st.IsBytewise) : st.isPlain = true := by
  cases bytewise <;> rfl

theorem areOperations {steps : List Step} (bytewise : ∀ st ∈ steps, st.IsBytewise) :
    AreOperations steps := by
  induction steps with
  | nil => trivial
  | cons st rest ih =>
    refine ⟨?_, ih fun st' later => bytewise st' (List.mem_cons_of_mem _ later)⟩
    cases bytewise st List.mem_cons_self <;> trivial

/-- By whatever answer, the effect is a commit under the key that the step is aimed at, or it is on
no key. -/
theorem effect_cases (bytewise : st.IsBytewise) (reply : Reply) :
    (∃ c : Change, Event.effect ⟨st, reply⟩ = .commit c ∧ st.target? = some c.key) ∨
      Event.effect ⟨st, reply⟩ = .none ∨ Event.effect ⟨st, reply⟩ = .flush ∨
        ∃ position, Event.effect ⟨st, reply⟩ = .announce position := by
  cases bytewise with
  | putBytes key value =>
    cases reply with
    | done => exact .inl ⟨⟨key, some value⟩, rfl, rfl⟩
    | _ => exact .inr (.inl rfl)
  | putBytesIfAbsent key value =>
    cases reply with
    | flag written =>
      cases written with
      | true => exact .inl ⟨⟨key, some value⟩, rfl, rfl⟩
      | false => exact .inr (.inl rfl)
    | _ => exact .inr (.inl rfl)
  | deleteBytes key =>
    cases reply with
    | done => exact .inl ⟨⟨key, none⟩, rfl, rfl⟩
    | _ => exact .inr (.inl rfl)
  | flush =>
    cases reply with
    | done => exact .inr (.inr (.inl rfl))
    | _ => exact .inr (.inl rfl)
  | setApplyIndex position => exact .inr (.inr (.inr ⟨position, rfl⟩))

/-- Whatever the answer, the effect is on no key but the one that the step is aimed at. -/
theorem left?_effect (bytewise : st.IsBytewise) (reply : Reply) :
    Event.effect ⟨st, reply⟩ ≠ .crash ∧
      ∀ key, st.target? ≠ some key → (Event.effect ⟨st, reply⟩).left? key = none := by
  obtain ⟨c, effect, aimed⟩ | effect | effect | ⟨position, effect⟩ := bytewise.effect_cases reply
  all_goals rw [effect]
  · refine ⟨nofun, fun key elsewhere => if_neg fun own : c.key = key => ?_⟩
    exact elsewhere (own ▸ aimed)
  · exact ⟨nofun, fun _ _ => rfl⟩
  · exact ⟨nofun, fun _ _ => rfl⟩
  · exact ⟨nofun, fun _ _ => rfl⟩

end IsBytewise

end Step

/-- A value under a key that is occupied is refused, and nothing changes; under any other key it is
written. -/
theorem Session.step_putBytesIfAbsent {s : Session} (inUse : s.store.isClosed = false)
    (key value : Bytes) :
    s.step (.putBytesIfAbsent key value) =
      if Store.occupied (s.store.committed.get? key) then (s, .flag false)
      else s.withStore (s.store.perform ⟨key, some value⟩) (.flag true) := by
  simp only [step, Store.putBytesIfAbsent_of_inUse inUse]
  split <;> rfl

/-- A step on octets succeeds on a store in use, and leaves it in use. -/
theorem Session.step_bytewise {s : Session} (inUse : s.store.isClosed = false) {st : Step}
    (bytewise : st.IsBytewise) :
    st.Succeeds (s.step st).2 ∧ (s.step st).1.store.isClosed = false := by
  have performed : ∀ c : Change, (s.store.perform c).isClosed = false := fun c =>
    (s.store.perform_isClosed c).trans inUse
  cases bytewise with
  | putBytes key value =>
    rw [show s.step (.putBytes key value) = _ from step_write inUse (.putBytes key value)]
    exact ⟨rfl, performed _⟩
  | deleteBytes key =>
    rw [show s.step (.deleteBytes key) = _ from step_write inUse (.deleteBytes key)]
    exact ⟨rfl, performed _⟩
  | putBytesIfAbsent key value =>
    rw [step_putBytesIfAbsent inUse]
    split
    · exact ⟨⟨false, rfl⟩, inUse⟩
    · exact ⟨⟨true, rfl⟩, performed _⟩
  | flush =>
    simp only [step, Store.flush_of_inUse inUse]
    exact ⟨rfl, inUse⟩
  | setApplyIndex position => exact ⟨rfl, inUse⟩

/-- Steps on octets succeed on a store in use, and leave it in use. -/
theorem Session.run_bytewise {s : Session} (inUse : s.store.isClosed = false) {steps : List Step}
    (bytewise : ∀ st ∈ steps, st.IsBytewise) :
    List.Forall₂ Step.Succeeds steps (s.run steps).2 ∧ (s.run steps).1.store.isClosed = false := by
  induction steps generalizing s with
  | nil => exact ⟨.nil, inUse⟩
  | cons st rest ih =>
    obtain ⟨answer, stillInUse⟩ := step_bytewise inUse (bytewise st List.mem_cons_self)
    obtain ⟨answers, last⟩ := ih stillInUse fun st' later =>
      bytewise st' (List.mem_cons_of_mem _ later)
    exact ⟨.cons answer answers, last⟩

/-- Steps on octets are no crashes. -/
theorem Step.IsBytewise.effect_ne_crash {steps : List Step}
    (bytewise : ∀ st ∈ steps, st.IsBytewise) (replies : List Reply) :
    ∀ e ∈ Step.eventsOf steps replies, e.effect ≠ .crash := by
  induction steps generalizing replies with
  | nil => exact nofun
  | cons st rest ih =>
    cases replies with
    | nil => exact nofun
    | cons reply replies =>
      have first := bytewise st List.mem_cons_self
      have own : st.events reply = [⟨st, reply⟩] := by cases first <;> rfl
      intro e member
      rw [eventsOf, own] at member
      rcases List.mem_append.mp member with now | later
      · rw [List.mem_singleton.mp now]
        exact (first.left?_effect reply).1
      · exact ih (fun st' later => bytewise st' (List.mem_cons_of_mem _ later)) replies e later

/-- **Octets under a key are those of the last write of it.** Let any steps on octets be carried out
on a store in use. All of them succeed. Under every key but that of the log position stands what the
last of them left there that was aimed at this key and did not find it occupied, or what stood there
first; a step that is aimed at another key, or at none, leaves it alone. A key counts as occupied
exactly if a value that is not empty stands under it. A value for a key that may be occupied is
refused exactly then, and the refusal leaves the whole session as it was: both tables, the log
position and the count of payload. -/
theorem octets_stand_as_last_left {s : Session} (inUse : s.store.isClosed = false)
    {steps : List Step} (bytewise : ∀ st ∈ steps, st.IsBytewise) :
    let s' := (s.run steps).1
    let replies := (s.run steps).2
    List.Forall₂ Step.Succeeds steps replies ∧
      (∀ key, key ≠ Key.applyIndex →
        s'.store.getBytes key =
            .ok (lastLeft key (s.store.committed.get? key) (Step.eventsOf steps replies)) ∧
          ∀ st : Step, st.IsBytewise → st.target? ≠ some key →
            (s'.step st).1.store.getBytes key = s'.store.getBytes key) ∧
      ∀ key, ∃ occupied, s'.store.hasKey key = .ok occupied ∧
        (occupied = true ↔ ∃ value, s'.store.getBytes key = .ok (some value) ∧ value ≠ []) ∧
        ∀ value,
          let written := s'.step (.putBytesIfAbsent key value)
          written.2 = .flag (!occupied) ∧ (written.2 = .flag false → written.1 = s') := by
  intro s' replies
  obtain ⟨succeeded, stillInUse⟩ := Session.run_bytewise inUse bytewise
  have course : s.Course ([] ++ Step.eventsOf steps replies) s' :=
    Session.Course.run_extends steps (Step.IsBytewise.areOperations bytewise) .start
  have noCrash := Step.IsBytewise.effect_ne_crash bytewise replies
  refine ⟨succeeded, ?values, ?writes⟩
  case values =>
    intro key data
    have value := (course.get?_committed inUse noCrash data).2
    refine ⟨?_, fun st other elsewhere => ?_⟩
    · rw [Store.getBytes_of_inUse stillInUse, value]
      rfl
    · obtain ⟨-, next⟩ := Session.step_bytewise stillInUse other
      obtain ⟨quiet, alone⟩ := other.left?_effect (s'.step st).2
      have turns := s'.step_turns other.isPlain
      have settled : s'.store.isClosed = true → s'.store.durable = s'.store.committed :=
        fun released => absurd (stillInUse.symm.trans released) Bool.false_ne_true
      rw [Store.getBytes_of_inUse stillInUse, Store.getBytes_of_inUse next,
        turns.get?_committed settled quiet data, alone key elsewhere]
      rfl
  case writes =>
    intro key
    refine ⟨_, Store.hasKey_of_inUse stillInUse key, ?_, fun value => ?_⟩
    · rw [Store.getBytes_of_inUse stillInUse]
      cases s'.store.committed.get? key with
      | none => simp [Store.occupied]
      | some value => simp [Store.occupied]
    · rw [Session.step_putBytesIfAbsent stillInUse]
      cases Store.occupied (s'.store.committed.get? key) with
      | true => exact ⟨rfl, fun _ => rfl⟩
      | false =>
        refine ⟨rfl, fun refused => ?_⟩
        cases refused

/-- A value, a refused one, a deletion of the log position and an empty value: the empty value
stands, and a further one is written over it. -/
theorem octets_stand_as_last_left_empty :
    let s := Session.start "/data" 100
    let steps : List Step :=
      [.putBytes [7] [1], .putBytesIfAbsent [7] [2], .setApplyIndex 3, .deleteBytes Key.applyIndex,
        .putBytes [7] [], .flush, .putBytes [8] [4]]
    let s' := (s.run steps).1
    s.store.isClosed = false ∧ (∀ st ∈ steps, st.IsBytewise) ∧
      s'.store.getBytes [7] = .ok (some []) ∧ s'.store.hasKey [7] = .ok false ∧
      (s'.step (.putBytesIfAbsent [7] [5])).2 = .flag true ∧
      (s'.step (.putBytesIfAbsent [8] [5])).1 = s' := by
  intro s steps s'
  have inUse : s.store.isClosed = false := rfl
  have bytewise : ∀ st ∈ steps, st.IsBytewise := by
    simp only [steps, List.forall_mem_cons]
    exact ⟨.putBytes _ _, .putBytesIfAbsent _ _, .setApplyIndex _, .deleteBytes _, .putBytes _ _,
      .flush, .putBytes _ _, nofun⟩
  obtain ⟨-, values, writes⟩ := octets_stand_as_last_left inUse bytewise
  have empty : s'.store.getBytes [7] = .ok (some []) := by
    rw [(values [7] (by decide)).1]
    decide +kernel
  obtain ⟨free, told, freeIff, written⟩ := writes [7]
  obtain ⟨taken, -, takenIff, refused⟩ := writes [8]
  have isFree : free = false := by
    rw [← Bool.not_eq_true, freeIff, empty]
    rintro ⟨value, same, some⟩
    cases same
    exact some rfl
  have isTaken : taken = true := by
    refine takenIff.mpr ⟨[4], ?_, by decide⟩
    rw [(values [8] (by decide)).1]
    decide +kernel
  subst isFree isTaken
  exact ⟨inUse, bytewise, empty, told, (written [5]).1, (refused [5]).2 (refused [5]).1⟩

end FileCatalog
