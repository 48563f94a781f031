import FileCatalog.Record.Inode
import Mathlib.Order.Bounds.Basic

/-!
# How inodes grow

Two calls change an inode in place: one sets its times, the other adds an extent. Each raises the
generation by one, and faults if it finds the largest there is. `Inode.Grown` says what calls in
turn make of an inode if none of them faults, field by field; `inode_grows_exactly` says that they
do so, and at which call they fault otherwise.

The size is told as the greatest of a set of numbers, that of the extents' ends and of the size
before, so nothing of the order of the calls is in it. An end past the largest word counts as that
word.

The call that faults has made its other change by then (`Inode.changed`). Calls behind it are not
made.
-/

namespace FileCatalog

/-- A clamped sum is the exact sum, or the largest word. -/
theorem Counting.toNat_addClamped (a b : UInt64) :
    (addClamped a b).toNat = min (a.toNat + b.toNat) (UInt64.size - 1) := by
  unfold addClamped
  split
  · next fits =>
    rw [UInt64.toNat_add, Nat.mod_eq_of_lt fits, Nat.min_eq_left (by omega)]
  · next past =>
    rw [UInt64.toNat_ofNat_of_lt' (by decide), Nat.min_eq_right (by omega)]

/-- Where an extent ends, as a number; the largest word if it ends past that. -/
def Extent.reach (e : Extent) : Nat := min (e.fileOffset.toNat + e.size.toNat) (UInt64.size - 1)

/-- The end of an extent in its file is the number that it reaches to. -/
theorem Extent.toNat_fileEnd (e : Extent) : e.fileEnd.toNat = e.reach :=
  Counting.toNat_addClamped e.fileOffset e.size.toUInt64

/-! ## The calls -/

/-- A call that changes an inode. -/
inductive InodeCall where
  | touch (now : Int64)
  | appendExtent (e : Extent)

namespace InodeCall

/-- The times that calls set, in turn. -/
def times (calls : List InodeCall) : List Int64 :=
  calls.filterMap fun
    | .touch now => some now
    | .appendExtent _ => none

/-- The extents that calls add, in turn. -/
def extents (calls : List InodeCall) : List Extent :=
  calls.filterMap fun
    | .touch _ => none
    | .appendExtent e => some e

@[simp] theorem times_append (calls others : List InodeCall) :
    times (calls ++ others) = times calls ++ times others :=
  List.filterMap_append

@[simp] theorem extents_append (calls others : List InodeCall) :
    extents (calls ++ others) = extents calls ++ extents others :=
  List.filterMap_append

/-- The ends of the extents that calls add. -/
def reaches (calls : List InodeCall) : Set Nat := { n | ∃ e ∈ extents calls, e.reach = n }

/-- Calls in two parts reach what either part reaches. -/
theorem reaches_append (calls others : List InodeCall) :
    reaches (calls ++ others) = reaches calls ∪ reaches others := by
  ext n
  simp only [reaches, extents_append, List.mem_append, or_and_right, exists_or]
  rfl

end InodeCall

open InodeCall

namespace Inode

variable {i i' i'' : Inode}

/-- The inode after a call, and how the call ended. -/
def call (i : Inode) : InodeCall → Inode × Except ArithmeticFault Unit
  | .touch now => i.touch now
  | .appendExtent e => i.appendExtent e

/-- The inode after calls in turn, up to the first that faults. -/
def run (i : Inode) : List InodeCall → Inode × Except ArithmeticFault Unit
  | [] => (i, .ok ())
  | c :: rest =>
    match i.call c with
    | (i', .ok ()) => i'.run rest
    | (i', .error fault) => (i', .error fault)

/-- What a call changes, but for the generation. -/
def changed (i : Inode) : InodeCall → Inode
  | .touch now => { i with accessTime := now, modifyTime := now }
  | .appendExtent e => { i with size := max i.size e.fileEnd, extents := i.extents ++ [e] }

/-- A call is its change, then the next generation. -/
theorem call_eq (i : Inode) (c : InodeCall) : i.call c = (i.changed c).bump := by
  cases c <;> rfl

theorem changed_generation (i : Inode) (c : InodeCall) :
    (i.changed c).generation = i.generation := by
  cases c <;> rfl

/-- The generation is the largest there is. -/
def HasLastGeneration (i : Inode) : Prop := i.generation.toNat = UInt64.size - 1

/-- A call that finds the largest generation leaves it, and faults. -/
theorem call_of_last (last : i.HasLastGeneration) (c : InodeCall) :
    i.call c = (i.changed c, .error .additionOverflow) := by
  have one : (1 : UInt64).toNat = 1 := rfl
  have full : ¬ i.generation.toNat + (1 : UInt64).toNat < UInt64.size := by
    rw [last, one]
    decide
  rw [call_eq, bump, changed_generation, Counting.addChecked, if_neg full]

/-- Below the largest generation a call succeeds, and raises it. -/
theorem call_of_room (before : ¬ i.HasLastGeneration) (c : InodeCall) :
    i.call c = ({ i.changed c with generation := i.generation + 1 }, .ok ()) ∧
      (i.generation + 1).toNat = i.generation.toNat + 1 := by
  have bound : i.generation.toNat < UInt64.size := i.generation.toNat_lt
  have one : (1 : UInt64).toNat = 1 := rfl
  have room : i.generation.toNat + (1 : UInt64).toNat < UInt64.size := by
    unfold HasLastGeneration at before
    omega
  refine ⟨?_, ?_⟩
  · rw [call_eq, bump, changed_generation, Counting.addChecked, if_pos room]
  · rw [UInt64.toNat_add]
    exact Nat.mod_eq_of_lt room

/-! ## What calls make of an inode -/

/-- The last of items in two parts is that of the second part, if it has any. -/
private theorem getLastD_append {α : Type} (items later : List α) (before : α) :
    (items ++ later).getLastD before = later.getLastD (items.getLastD before) := by
  rw [List.getLastD_eq_getLast?, List.getLastD_eq_getLast?, List.getLastD_eq_getLast?,
    List.getLast?_append]
  cases later.getLast? <;> rfl

/-- An inode without what calls change. -/
def lasting (i : Inode) : Inode :=
  { i with generation := 0, extents := [], size := 0, accessTime := 0, modifyTime := 0 }

/-- One inode is what calls make of another, if none of them faults. -/
structure Grown (i : Inode) (calls : List InodeCall) (i' : Inode) : Prop where
  generation : i'.generation.toNat = i.generation.toNat + calls.length
  extents : i'.extents = i.extents ++ InodeCall.extents calls
  size : IsGreatest (insert i.size.toNat (reaches calls)) i'.size.toNat
  accessTime : i'.accessTime = (times calls).getLastD i.accessTime
  modifyTime : i'.modifyTime = (times calls).getLastD i.modifyTime
  others : i'.lasting = i.lasting

/-- Without extents nothing is greater than the size before. -/
private theorem isGreatest_of_no_extents {calls : List InodeCall}
    (none : InodeCall.extents calls = []) (n : Nat) :
    IsGreatest (insert n (reaches calls)) n := by
  have empty : reaches calls = ∅ := by simp [reaches, none]
  rw [empty, insert_empty_eq]
  exact isGreatest_singleton

namespace Grown

/-- Without calls an inode is as it was. -/
theorem nil (i : Inode) : i.Grown [] i where
  generation := rfl
  extents := (List.append_nil _).symm
  size := isGreatest_of_no_extents rfl _
  accessTime := rfl
  modifyTime := rfl
  others := rfl

/-- What calls make of what calls made is what all of them make. -/
theorem append {calls others : List InodeCall} (first : i.Grown calls i')
    (second : i'.Grown others i'') : i.Grown (calls ++ others) i'' where
  generation := by
    rw [second.generation, first.generation, List.length_append, Nat.add_assoc]
  extents := by
    rw [second.extents, first.extents, extents_append, List.append_assoc]
  size := by
    obtain ⟨reached, above⟩ := first.size
    obtain ⟨reached', above'⟩ := second.size
    rw [reaches_append, ← Set.insert_union]
    -- What is reached in the end was reached by the first calls already, or by the others.
    constructor
    · rcases reached' with same | reached'
      · rw [same]
        exact Or.inl reached
      · exact Or.inr reached'
    · rintro n (listed | listed)
      · exact Nat.le_trans (above listed) (above' (Set.mem_insert _ _))
      · exact above' (Set.mem_insert_of_mem _ listed)
  accessTime := by
    rw [second.accessTime, first.accessTime, times_append, getLastD_append]
  modifyTime := by
    rw [second.modifyTime, first.modifyTime, times_append, getLastD_append]
  others := second.others.trans first.others

/-- One call that succeeds. -/
theorem single (before : ¬ i.HasLastGeneration) (c : InodeCall) : i.Grown [c] (i.call c).1 := by
  obtain ⟨called, raised⟩ := call_of_room before c
  rw [called]
  cases c with
  | touch now =>
    exact ⟨raised, (List.append_nil _).symm, isGreatest_of_no_extents rfl _, rfl, rfl, rfl⟩
  | appendExtent e =>
    have one : reaches [.appendExtent e] = {e.reach} := by
      ext n
      simp [reaches, InodeCall.extents, eq_comm]
    have size : (max i.size e.fileEnd).toNat = max i.size.toNat e.reach := by
      rw [← e.toNat_fileEnd]
      exact UInt64.toNat_max ..
    refine ⟨raised, rfl, ?_, rfl, rfl, rfl⟩
    rw [one]
    show IsGreatest _ (max i.size e.fileEnd).toNat
    rw [size]
    exact isGreatest_singleton.insert _

variable {calls others : List InodeCall}

/-- Calls do not shrink an inode. -/
theorem size_le (grown : i.Grown calls i') : i.size ≤ i'.size :=
  UInt64.le_iff_toNat_le.mpr (grown.size.2 (Set.mem_insert _ _))

/-- The size is settled by the extents, whatever their order. -/
theorem size_eq (grown : i.Grown calls i') (grown' : i.Grown others i'')
    (same : ∀ e, e ∈ InodeCall.extents calls ↔ e ∈ InodeCall.extents others) :
    i'.size = i''.size := by
  have ends : reaches calls = reaches others := by
    ext n
    simp only [reaches, same]
  have greatest := grown.size
  rw [ends] at greatest
  exact UInt64.toNat_inj.mp (greatest.unique grown'.size)

/-- Of an empty inode the size becomes the greatest end of an extent, or stays zero without any. -/
theorem size_of_empty (grown : i.Grown calls i') (empty : i.size = 0) :
    (InodeCall.extents calls = [] → i'.size = 0) ∧
      (InodeCall.extents calls ≠ [] → IsGreatest (reaches calls) i'.size.toNat) := by
  obtain ⟨reached, above⟩ := grown.size
  rw [empty] at reached above
  constructor
  · intro none
    rcases reached with zero | ⟨e, listed, -⟩
    · exact UInt64.toNat_inj.mp zero
    · rw [none] at listed
      exact absurd listed List.not_mem_nil
  · intro some
    refine ⟨?_, fun n listed => above (Set.mem_insert_of_mem _ listed)⟩
    rcases reached with zero | reached
    · -- An extent that ends at zero reaches as far as the size does.
      obtain ⟨e, listed⟩ := List.exists_mem_of_ne_nil _ some
      have ends : e.reach ∈ reaches calls := ⟨e, listed, rfl⟩
      have below := above (Set.mem_insert_of_mem _ ends)
      have same : i'.size.toNat = e.reach := by
        rw [zero] at below ⊢
        exact (Nat.le_zero.mp below).symm
      rw [same]
      exact ends
    · exact reached

end Grown

/-! ## Runs -/

variable {calls : List InodeCall}

/-- A call with room for the generation succeeds, and the others run on what it left. -/
theorem run_cons (before : ¬ i.HasLastGeneration) (c : InodeCall) (rest : List InodeCall) :
    i.run (c :: rest) = (i.call c).1.run rest := by
  rw [run, (call_of_room before c).1]

/-- With room for the generation all calls succeed. -/
theorem run_of_room (room : i.generation.toNat + calls.length < UInt64.size) :
    (i.run calls).2 = .ok () ∧ i.Grown calls (i.run calls).1 := by
  induction calls generalizing i with
  | nil => exact ⟨rfl, .nil i⟩
  | cons c calls ih =>
    rw [List.length_cons] at room
    have before : ¬ i.HasLastGeneration := by
      unfold HasLastGeneration
      omega
    have first := Grown.single before c
    have raised : (i.call c).1.generation.toNat = i.generation.toNat + 1 := first.generation
    obtain ⟨succeed, later⟩ := ih (i := (i.call c).1) (by omega)
    rw [run_cons before]
    exact ⟨succeed, first.append later⟩

/-- Behind calls that succeed a run goes on. -/
theorem run_append (succeed : (i.run calls).2 = .ok ()) (rest : List InodeCall) :
    i.run (calls ++ rest) = (i.run calls).1.run rest := by
  induction calls generalizing i with
  | nil => rfl
  | cons c calls ih =>
    have before : ¬ i.HasLastGeneration := by
      intro last
      rw [run, call_of_last last] at succeed
      cases succeed
    rw [run_cons before] at succeed ⊢
    rw [List.cons_append, run_cons before]
    exact ih succeed

/-- Without room for all calls a run ends at the one that finds the largest generation. -/
theorem run_of_no_room (full : UInt64.size ≤ i.generation.toNat + calls.length) :
    ∃ before c behind, calls = before ++ c :: behind ∧ (i.run before).2 = .ok () ∧
      i.Grown before (i.run before).1 ∧ (i.run before).1.HasLastGeneration ∧
        i.run calls = (i.run before).1.call c := by
  have bound : i.generation.toNat < UInt64.size := i.generation.toNat_lt
  have split := List.take_append_drop (UInt64.size - 1 - i.generation.toNat) calls
  have length : (calls.take (UInt64.size - 1 - i.generation.toNat)).length =
      UInt64.size - 1 - i.generation.toNat := by
    rw [List.length_take]
    omega
  obtain ⟨c, behind, left⟩ : ∃ c behind,
      calls.drop (UInt64.size - 1 - i.generation.toNat) = c :: behind := by
    apply List.exists_cons_of_length_pos
    rw [List.length_drop]
    omega
  generalize calls.take (UInt64.size - 1 - i.generation.toNat) = before at split length
  rw [left] at split
  have room : i.generation.toNat + before.length < UInt64.size := by omega
  obtain ⟨succeed, grown⟩ := run_of_room room
  have last : (i.run before).1.HasLastGeneration := by
    rw [HasLastGeneration, grown.generation]
    omega
  refine ⟨before, c, behind, split.symm, succeed, grown, last, ?_⟩
  rw [← split, run_append succeed, run, call_of_last last]

/-- A call faults exactly if it finds the largest generation. -/
theorem call_succeeds_iff (i : Inode) (c : InodeCall) :
    (i.call c).2 = .ok () ↔ ¬ i.HasLastGeneration := by
  constructor
  · intro succeeds last
    rw [call_of_last last] at succeeds
    cases succeeds
  · intro before
    rw [(call_of_room before c).1]

/-- Calls succeed exactly if the generation has room for as many. -/
theorem run_succeeds_iff (i : Inode) (calls : List InodeCall) :
    (i.run calls).2 = .ok () ↔ i.generation.toNat + calls.length ≤ UInt64.size - 1 := by
  have bound : i.generation.toNat < UInt64.size := i.generation.toNat_lt
  constructor
  · intro succeed
    by_contra tight
    have full : UInt64.size ≤ i.generation.toNat + calls.length := by omega
    obtain ⟨before, c, -, -, -, -, last, ended⟩ := run_of_no_room full
    rw [ended, call_of_last last] at succeed
    cases succeed
  · intro room
    apply (run_of_room _).1
    omega

/-- Calls that succeed make of the inode what they say. -/
theorem grown_of_run (succeed : (i.run calls).2 = .ok ()) : i.Grown calls (i.run calls).1 := by
  have bound : i.generation.toNat < UInt64.size := i.generation.toNat_lt
  have room := (run_succeeds_iff i calls).mp succeed
  apply (run_of_room _).2
  omega

end Inode

/-- **Inodes grow exactly.** Take any inode and any calls that touch it or add extents. All of them
succeed exactly if the generation has room for their number. Then they raise the generation by this
number, leave the extents with the new ones behind them and the times of the last touch, let the
size reach the greatest end of an extent, and change nothing else. Otherwise the run ends at the
call that finds the largest generation: this is the only way for a call to fault. So the size
neither shrinks nor depends on the order of the extents; that of a fresh inode is the greatest of
their ends, or zero. -/
theorem inode_grows_exactly :
    (∀ (i : Inode) (calls : List InodeCall),
      ((i.run calls).2 = .ok () ↔ i.generation.toNat + calls.length ≤ UInt64.size - 1) ∧
        ((i.run calls).2 = .ok () →
          i.Grown calls (i.run calls).1 ∧ i.size ≤ (i.run calls).1.size) ∧
        ((i.run calls).2 ≠ .ok () → ∃ before c behind, calls = before ++ c :: behind ∧
          (i.run before).2 = .ok () ∧ i.Grown before (i.run before).1 ∧
            (i.run before).1.HasLastGeneration ∧ i.run calls = (i.run before).1.call c ∧
            (i.run calls).2 = .error .additionOverflow)) ∧
      (∀ (i : Inode) (c : InodeCall), (i.call c).2 = .ok () ↔ ¬ i.HasLastGeneration) ∧
      (∀ (i : Inode) (calls others : List InodeCall),
        (i.run calls).2 = .ok () → (i.run others).2 = .ok () →
          (∀ e, e ∈ InodeCall.extents calls ↔ e ∈ InodeCall.extents others) →
            (i.run calls).1.size = (i.run others).1.size) ∧
      ∀ (now : Int64) (number : UInt64) (mode : UInt32) (calls : List InodeCall),
        let i := Inode.fresh now number mode
        (i.run calls).2 = .ok () →
          (InodeCall.extents calls = [] → (i.run calls).1.size = 0) ∧
            (InodeCall.extents calls ≠ [] →
              IsGreatest (InodeCall.reaches calls) (i.run calls).1.size.toNat) := by
  refine ⟨fun i calls => ⟨i.run_succeeds_iff calls, ?grown, ?faults⟩, Inode.call_succeeds_iff,
    ?order, ?fresh⟩
  case grown =>
    intro succeeds
    have grown := Inode.grown_of_run succeeds
    exact ⟨grown, grown.size_le⟩
  case faults =>
    intro fails
    have full : UInt64.size ≤ i.generation.toNat + calls.length := by
      rw [ne_eq, i.run_succeeds_iff] at fails
      omega
    obtain ⟨before, c, behind, split, succeed, grown, last, ended⟩ := Inode.run_of_no_room full
    refine ⟨before, c, behind, split, succeed, grown, last, ended, ?_⟩
    rw [ended, Inode.call_of_last last]
  case order =>
    intro i calls others succeeds succeeds' same
    exact (Inode.grown_of_run succeeds).size_eq (Inode.grown_of_run succeeds') same
  case fresh =>
    intro now number mode calls i succeeds
    exact (Inode.grown_of_run succeeds).size_of_empty rfl

/-- Two extents in either order let the size reach the largest word, where one of them would end
past it. With a touch between them the last call finds the largest generation. A fresh inode reaches
as far as its extents do. -/
theorem inode_grows_to_largest :
    let i : Inode := { number := 7, size := 50, generation := 0xFFFFFFFFFFFFFFFD, mode := 0o100644 }
    let high : Extent := { fileOffset := 0xFFFFFFFFFFFFFFF0, size := 4096 }
    let low : Extent := { fileOffset := 10, size := 20 }
    let full : List InodeCall := [.appendExtent high, .touch 9, .appendExtent low]
    ((i.run [.appendExtent high, .appendExtent low]).1.size = 0xFFFFFFFFFFFFFFFF ∧
        (i.run [.appendExtent low, .appendExtent high]).1.size = 0xFFFFFFFFFFFFFFFF) ∧
      (∃ before c behind, full = before ++ c :: behind ∧ (i.run before).2 = .ok () ∧
        (i.run before).1.HasLastGeneration ∧ (i.run full).2 = .error .additionOverflow) ∧
      IsGreatest (InodeCall.reaches [.appendExtent low, .touch 3])
        ((Inode.fresh 5 8 0o100644).run [.appendExtent low, .touch 3]).1.size.toNat ∧
      ((Inode.fresh 5 8 0o100644).run [.touch 3]).1.size = 0 := by
  intro i high low full
  obtain ⟨grows, -, order, fresh⟩ := inode_grows_exactly
  have succeeds : (i.run [.appendExtent high, .appendExtent low]).2 = .ok () := by
    rw [(grows i _).1]
    decide
  have succeeds' : (i.run [.appendExtent low, .appendExtent high]).2 = .ok () := by
    rw [(grows i _).1]
    decide
  have fails : (i.run full).2 ≠ .ok () := by
    rw [ne_eq, (grows i _).1]
    decide
  refine ⟨?_, ?_, ?_, ?_⟩
  · have largest :
        (i.run [.appendExtent high, .appendExtent low]).1.size = 0xFFFFFFFFFFFFFFFF := by
      decide +kernel
    refine ⟨largest, ?_⟩
    rw [← largest]
    apply order i _ _ succeeds' succeeds
    intro e
    simp [InodeCall.extents, or_comm]
  · obtain ⟨before, c, behind, split, reached, -, last, -, fault⟩ := (grows i _).2.2 fails
    exact ⟨before, c, behind, split, reached, last, fault⟩
  · apply (fresh 5 8 0o100644 [.appendExtent low, .touch 3] rfl).2
    exact List.cons_ne_nil low []
  · apply (fresh 5 8 0o100644 [.touch 3] rfl).1
    rfl

end FileCatalog
