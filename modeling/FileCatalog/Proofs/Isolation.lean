import FileCatalog.Proofs.Ledger
import Mathlib.Tactic.SplitIfs

/-!
# Isolation of snapshots and scans

A snapshot that is held stays what it is. `Event.drops` says which events end the holding: the
closing of the snapshot, and the taking of another under its name. Nothing else reaches it. What its
readers learn is one committed state with the log position of its commit: the value under every key,
the number of entries of every collection, and what every scan has for its visitor
(`Session.ShowsCommit`). So they learn the same after every course without such an event as at the
moment it was taken (`Session.ReadsAlike`).

A scan of the store is isolated in the same sense. Its visitor may work on the session in every
visit (`Scan.working`); the visitor is still offered what it would have been offered had it not.

`snapshot_isolated` puts both together.
-/

namespace FileCatalog

/-- The event ends the holding of the snapshot of a name. -/
def Event.drops (name : String) (e : Event) : Prop :=
  match e.step, e.reply with
  | .takeSnapshot name', .done | .closeSnapshot name', .done => name' = name
  | _, _ => False

namespace Session

/-! ## Snapshots that are held -/

section Holding

variable {name : String} (s : Session)

private theorem lookup_filter_ne {α : Type} {name other : String} (different : other ≠ name)
    (held : List (String × α)) :
    (held.filter (·.1 ≠ other)).lookup name = held.lookup name := by
  induction held with
  | nil => rfl
  | cons first rest ih =>
    obtain ⟨key, a⟩ := first
    by_cases dropped : key = other
    · have passed : (name == key) = false := by
        rw [dropped]
        exact beq_false_of_ne different.symm
      rw [List.filter_cons_of_neg (by simp [dropped]), ih, List.lookup_cons, passed]
    · rw [List.filter_cons_of_pos (by simp [dropped]), List.lookup_cons, List.lookup_cons, ih]

/-- Closing a snapshot leaves those of other names. -/
@[simp] theorem snapshot?_dropSnapshot {other : String} (different : other ≠ name) :
    (s.dropSnapshot other).snapshot? name = s.snapshot? name :=
  lookup_filter_ne different s.snapshots

/-- A snapshot taken holds the committed table of the moment. -/
theorem step_takeSnapshot (inUse : s.store.isClosed = false) (name : String) :
    (s.step (.takeSnapshot name)).2 = .done ∧
      (s.step (.takeSnapshot name)).1.snapshot? name =
        some ⟨s.store.directory, s.store.committed⟩ := by
  rw [step, Store.snapshot_of_inUse inUse]
  exact ⟨rfl, List.lookup_cons_self⟩

/-- A plain step that does not drop the snapshot of a name leaves it as it is. -/
theorem step_snapshot? {st : Step} (plain : st.isPlain = true)
    (kept : ¬ Event.drops name ⟨st, (s.step st).2⟩) :
    (s.step st).1.snapshot? name = s.snapshot? name := by
  -- Only the two steps about snapshots can reach one; each says which by its name.
  rcases (s.step_beside plain).2 with ⟨other, rfl | rfl⟩ | same
  · simp only [step] at kept ⊢
    cases taken : s.store.snapshot with
    | error e => rfl
    | ok view =>
      rw [taken] at kept
      have different : other ≠ name := kept
      have passed : (name == other) = false := beq_false_of_ne different.symm
      simp only [snapshot?, List.lookup_cons, passed]
      exact s.snapshot?_dropSnapshot different
  · simp only [step] at kept ⊢
    cases found : s.snapshot? other with
    | none => rfl
    | some view =>
      rw [found] at kept
      exact s.snapshot?_dropSnapshot kept
  · exact congrArg (List.lookup name) same

end Holding

/-- A course that does not drop the snapshot of a name leaves it as it is. -/
theorem Course.snapshot?_kept {s s' : Session} {trace : List Event} {name : String}
    (course : s.Course trace s') (kept : ∀ e ∈ trace, ¬ e.drops name) :
    s'.snapshot? name = s.snapshot? name := by
  induction course with
  | start => rfl
  | @step trace s' before st plain ih =>
    have last := kept ⟨st, (s'.step st).2⟩ (List.mem_append_right _ List.mem_cons_self)
    rw [s'.step_snapshot? plain last]
    exact ih fun e he => kept e (List.mem_append_left _ he)
  | scanning before directories ih => exact ih kept

end Session

/-! ## Visitors that work -/

namespace Scan

variable {σ α ε : Type}

/-- A visitor that carries out steps on a session in every visit, by what it knows at the time. -/
def working (plan : σ → Item → List Step) (visit : Visitor σ Item ε) :
    Visitor (Session × σ) Item ε := fun v item =>
  (((v.1.run (plan v.2 item)).1, (visit v.2 item).1), (visit v.2 item).2)

/-- The visitor, with the items that it was called on noted. -/
def noting (visit : Visitor σ α ε) : Visitor (List α × σ) α ε := fun v a =>
  ((v.1 ++ [a], (visit v.2 a).1), (visit v.2 a).2)

/-- Work between two items changes nothing of the calls and the result of a scan. -/
theorem present_working (plan : σ → Item → List Step)
    (visit : Visitor σ Item (ScanFault ε)) (fault : Option StoreError) (s : Session) (state : σ)
    (items : List Item) :
    let worked := present (working plan visit) fault (s, state) items
    (worked.1.2, worked.2) = present visit fault state items := by
  intro worked
  have alike : ∀ (v : Session × σ) (known : σ) (item : Item), v.2 = known →
      (working plan visit v item).1.2 = (visit known item).1 ∧
        (working plan visit v item).2 = (visit known item).2 := by
    rintro v known item rfl
    exact ⟨rfl, rfl⟩
  obtain ⟨known, ended⟩ := present_related alike rfl
  exact Prod.ext known ended

/-- What is noted is a beginning of the items. -/
theorem present_noting (visit : Visitor σ α (ScanFault ε)) (fault : Option StoreError)
    (seen : List α) (state : σ) (items : List α) :
    (present (noting visit) fault (seen, state) items).1.1 <+: seen ++ items := by
  induction items generalizing seen state with
  | nil => rw [List.append_nil]; exact List.prefix_rfl
  | cons a rest ih =>
    have next := ih (seen ++ [a]) (visit state a).1
    rw [List.append_assoc] at next
    have first : seen ++ [a] <+: seen ++ a :: rest :=
      List.prefix_append_right_inj seen |>.mpr (List.prefix_append [a] rest)
    rw [present]
    simp only [noting]
    cases (visit state a).2 with
    | more => exact next
    | enough => exact first
    | fail e => exact first

end Scan

namespace Session

/-! ## Reading a snapshot -/

/-- Whoever reads the snapshot of a name is shown a committed state: its values, its log position,
and how many entries stand between the bounds of a collection. A scan visits what the table of the
commit has for its target, whether a session carries it out (`octets`, `scan`) or a visitor of any
kind is called (`visits`). -/
structure ShowsCommit (s : Session) (name : String) (commit : Commit) : Prop where
  get : ∀ key, (s.step (.snapshotGet name key)).2 = .value (commit.table.get? key)
  applyIndex : (s.step (.snapshotApplyIndex name)).2 = .number commit.position.toNat
  count : ∀ c : Collection, (s.step (.snapshotCount name c)).2 =
    .number (commit.table.range c.least c.boundary).length
  octets : ∀ first last, (s.step (.scan (some name) (.bytes first last) {} [])).2.outer =
    .scanned ((commit.table.range first last).map fun e => .value e.2) none none
  scan : ∀ target : Target,
    let o := target.offer commit.table
    (s.step (.scan (some name) target {} [])).2.outer = .scanned o.items (o.fault.map .store) none
  visits : ∀ {σ : Type} (target : Target) (visit : Scan.Visitor σ Item (ScanFault Nat)) (state : σ)
    (view : Snapshot), s.snapshot? name = some view →
      let o := target.offer commit.table
      target.onSnapshot view visit state = Scan.present visit o.fault state o.items

/-- A snapshot that holds the table of a commit shows that commit through every read of it. -/
theorem showsCommit {s : Session} {name : String} {view : Snapshot} {commit : Commit}
    (held : s.snapshot? name = some view) (committed : view.table = commit.table) :
    s.ShowsCommit name commit where
  get key := by
    simp only [step, askSnapshot, held, Snapshot.get?, committed]
  applyIndex := by
    simp only [step, askSnapshot, held, Snapshot.applyIndex, committed, commit.recorded]
    rfl
  count c := by
    simp only [step, askSnapshot, held, Snapshot.count_eq, committed]
  octets first last := by
    rw [s.step_scanSnapshot held, committed, Target.offer, Table.valuesIn, Offer.map, List.map_map]
    rfl
  scan target := by
    rw [s.step_scanSnapshot held, committed]
  visits target visit state view' held' := by
    rw [held, Option.some.injEq] at held'
    rw [← held', target.onSnapshot_eq, committed]

/-- Whoever reads the snapshot of a name learns the same in two sessions, whatever is done inside
the visits of a scan: by a session (`scan`), or by a visitor of any kind (`visits`). -/
structure ReadsAlike (name : String) (s s' : Session) : Prop where
  get : ∀ key, (s.step (.snapshotGet name key)).2 = (s'.step (.snapshotGet name key)).2
  applyIndex : (s.step (.snapshotApplyIndex name)).2 = (s'.step (.snapshotApplyIndex name)).2
  count : ∀ c, (s.step (.snapshotCount name c)).2 = (s'.step (.snapshotCount name c)).2
  scan : ∀ target halt during during',
    (s.step (.scan (some name) target halt during)).2.outer =
      (s'.step (.scan (some name) target halt during')).2.outer
  visits : ∀ {σ : Type} (target : Target) (plan : σ → Item → List Step)
    (visit : Scan.Visitor σ Item (ScanFault Nat)) (state : σ) (view view' : Snapshot),
    s.snapshot? name = some view → s'.snapshot? name = some view' →
      let worked := target.onSnapshot view (Scan.working plan visit) (s, state)
      (worked.1.2, worked.2) = target.onSnapshot view' visit state

/-- Where the visitor of a session ends depends on how many items it has seen, not on its session
or on what is done there. -/
private theorem visitor_alike (halt : Halt) (inside inside' : Session → Session × List Reply)
    (v v' : Visit) (item : Item) (same : v.seen = v'.seen) :
    (visitor halt inside v item).1.seen = (visitor halt inside' v' item).1.seen ∧
      (visitor halt inside v item).2 = (visitor halt inside' v' item).2 := by
  simp only [visitor, same]
  split_ifs <;> exact ⟨rfl, rfl⟩

/-- A scan calls and ends alike, whatever the steps that run inside it. -/
private theorem present_visitor_alike (halt : Halt)
    (inside inside' : Session → Session × List Reply) (s s' : Session) (o : Offer Item) :
    let outcome := Scan.present (visitor halt inside) o.fault { session := s } o.items
    let outcome' := Scan.present (visitor halt inside') o.fault { session := s' } o.items
    outcome.1.seen = outcome'.1.seen ∧ outcome.2 = outcome'.2 :=
  Scan.present_related (R := fun v v' : Visit => v.seen = v'.seen)
    (fun v v' item same => visitor_alike halt inside inside' v v' item same) rfl

/-- Sessions that hold the same snapshot under a name read it alike. -/
theorem readsAlike_of_snapshot? {name : String} {s s' : Session}
    (same : s.snapshot? name = s'.snapshot? name) : ReadsAlike name s s' where
  get key := by simp only [step, askSnapshot, same]; split <;> rfl
  applyIndex := by simp only [step, askSnapshot, same]; split <;> rfl
  count c := by simp only [step, askSnapshot, same]; split <;> rfl
  scan target halt during during' := by
    rw [step, step, scan, scan]
    simp only [same]
    cases s'.snapshot? name with
    | none => rfl
    | some view =>
      simp only [Target.onSnapshot_eq, Reply.outer]
      obtain ⟨seen, fault⟩ := present_visitor_alike halt (fun inner => inner.run during)
        (fun inner => inner.run during') { s with scanning := view.directory :: s.scanning }
        { s' with scanning := view.directory :: s'.scanning } (target.offer view.table)
      rw [seen, fault]
  visits target plan visit state view view' held held' := by
    rw [same, held'] at held
    cases held
    simp only [Target.onSnapshot_eq]
    exact Scan.present_working plan visit _ s state _

/-! ## Scanning the store -/

/-- What scans of the store of a session visit is settled before the first visit: it is what the
table has that is committed then. Nothing that a visitor does to the session makes a difference, and
a visitor whose verdicts go by what it does there can only end the scan earlier. -/
structure ScansApart (s : Session) : Prop where
  settled : s.ScansCommitted
  scan : ∀ target halt during,
    (s.step (.scan none target halt during)).2.outer = (s.step (.scan none target halt [])).2.outer
  visits : ∀ {σ : Type} (target : Target) (plan : σ → Item → List Step)
    (visit : Scan.Visitor σ Item (ScanFault Nat)) (state : σ),
      let worked := target.onStore s.store (Scan.working plan visit) (s, state)
      (worked.1.2, worked.2) = target.onStore s.store visit state
  seen : ∀ {σ : Type} (target : Target) (visit : Scan.Visitor σ Item (ScanFault Nat)) (state : σ),
    (target.onStore s.store (Scan.noting visit) ([], state)).1.1 <+:
      (target.offer s.store.committed).items

/-- A scan under way goes on in the snapshot that it began with. -/
theorem scansApart (s : Session) : s.ScansApart where
  settled := s.scansCommitted
  scan target halt during := by
    rw [step, step, scan, scan]
    cases released : s.store.isClosed with
    | true => simp only [Target.onStore_closed target released]
    | false =>
      simp only [Target.onStore_eq target released, Reply.outer]
      obtain ⟨seen, fault⟩ := present_visitor_alike halt (fun inner => inner.run during)
        (fun inner => inner.run []) { s with scanning := s.store.directory :: s.scanning }
        { s with scanning := s.store.directory :: s.scanning } (target.offer s.store.committed)
      rw [seen, fault]
  visits target plan visit state := by
    cases released : s.store.isClosed with
    | true => simp only [Target.onStore_closed target released]
    | false =>
      simp only [Target.onStore_eq target released]
      exact Scan.present_working plan visit _ s state _
  seen target visit state := by
    cases released : s.store.isClosed with
    | true =>
      rw [Target.onStore_closed target released]
      exact List.nil_prefix
    | false =>
      rw [Target.onStore_eq target released]
      exact Scan.present_noting visit _ [] state _

end Session

/-- **Snapshots and scans are isolated.** At any moment `s` of any run from a store that was just
opened, let a snapshot be taken, and let any course follow that does not drop it. Then the snapshot
is still held; it holds the state of the last commit before it was taken, the table together with
the log position announced at that commit; and its readers are shown this state, which is what they
would have been shown at once. At every moment a scan of the store visits what is committed when it
begins, whatever its own visitor does; at the moment `s` that is the same state. -/
theorem snapshot_isolated {s₀ s s' : Session} {origin : Commit} {w : UInt64} {name : String}
    {before after : List Event}
    (opened : Store.load s₀.store.directory origin.table w = .ok s₀.store)
    (reached : s₀.Course before s) (taken : (s.step (.takeSnapshot name)).2 = .done)
    (later : (s.step (.takeSnapshot name)).1.Course after s')
    (kept : ∀ e ∈ after, ¬ e.drops name) :
    let l := (Ledger.opened origin w s₀.writeBuffer).follow before
    (∃ view, s'.snapshot? name = some view ∧ view.table = l.current.table ∧
      view.applyIndex = .ok l.current.position) ∧
      s'.ShowsCommit name l.current ∧ s'.ReadsAlike name (s.step (.takeSnapshot name)).1 ∧
      (∀ moment : Session, moment.ScansApart) ∧ s.store.committed = l.current.table := by
  intro l
  have inUse : s.store.isClosed = false := by
    cases released : s.store.isClosed with
    | false => rfl
    | true =>
      rw [Session.step, Store.snapshot_of_released released] at taken
      cases taken
  obtain ⟨described, -⟩ := reached.described (Ledger.opened_describes opened s₀.writeBuffer) rfl
  have same := later.snapshot?_kept kept
  have held : s'.snapshot? name = some ⟨s.store.directory, s.store.committed⟩ :=
    same.trans (s.step_takeSnapshot inUse name).2
  refine ⟨⟨_, held, described.committed, ?_⟩, Session.showsCommit held described.committed,
    Session.readsAlike_of_snapshot? same, Session.scansApart, described.committed⟩
  rw [Snapshot.applyIndex, described.committed]
  exact l.current.recorded

/-- A snapshot outlives the deletion of what it holds, the release of its store and a crash: it
still answers with the value that is gone from the store, and with the log position of its commit.
-/
theorem snapshot_isolated_from_deletion :
    let s₀ := Session.start "/data" 0
    let s := (s₀.run [.setApplyIndex 3, .putBytes [7] [1, 2]]).1
    let steps : List Step := [.setApplyIndex 4, .deleteBytes [7], .release, .crash]
    let s₁ := (s.step (.takeSnapshot "view")).1
    let s₂ := (s₁.run steps).1
    (s.step (.takeSnapshot "view")).2 = .done ∧
      (∀ e ∈ Step.eventsOf steps (s₁.run steps).2, ¬ e.drops "view") ∧
      s₂.ReadsAlike "view" s₁ ∧ s₂.store.committed.get? [7] = none ∧
      (s₂.step (.snapshotGet "view" [7])).2 = .value (some [1, 2]) ∧
      (s₂.step (.snapshotApplyIndex "view")).2 = .number 3 ∧
      (s₂.step (.scan (some "view") (.bytes [0] [9]) {} [])).2.outer =
        .scanned [.value [1, 2]] none none := by
  intro s₀ s steps s₁ s₂
  have opened : Store.load s₀.store.directory Commit.empty.table 0 = .ok s₀.store := rfl
  have reached : s₀.Course _ s := Session.Course.run_extends
    [.setApplyIndex 3, .putBytes [7] [1, 2]] (by simp [Step.AreOperations, Step.IsOperation]) .start
  have taken : (s.step (.takeSnapshot "view")).2 = .done := rfl
  have later : s₁.Course ([] ++ Step.eventsOf steps (s₁.run steps).2) s₂ :=
    Session.Course.run_extends steps (by simp [steps, Step.AreOperations, Step.IsOperation]) .start
  have kept : ∀ e ∈ Step.eventsOf steps (s₁.run steps).2, ¬ e.drops "view" := by
    simp [steps, Session.run, Step.eventsOf, Step.events, Event.drops]
  obtain ⟨-, shows, alike, -, committed⟩ := snapshot_isolated opened reached taken later kept
  refine ⟨taken, kept, alike, by decide +kernel, ?get, ?index, ?scan⟩
  case get =>
    rw [shows.get, ← committed]
    exact congrArg Reply.value (by decide +kernel)
  case index =>
    rw [shows.applyIndex]
    exact congrArg Reply.number (by decide +kernel)
  case scan =>
    have found : s.store.committed.range [0] [9] = [([7], [1, 2])] := by decide +kernel
    rw [shows.octets, ← committed, found]
    rfl

end FileCatalog
