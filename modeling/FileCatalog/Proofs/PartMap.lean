import FileCatalog.Proofs.Parts
import Mathlib.Algebra.BigOperators.Group.Finset.Basic
import Mathlib.Algebra.GroupWithZero.Nat
import Mathlib.Data.FinEnum
import Mathlib.Data.List.Sort

/-!
# Parts as a map

An upload whose parts are in order stands for a map from part numbers to parts. `parts_are_a_map`
says that nothing else can be seen of it: whatever calls insert, remove and look up parts, each call
answers as the map does, the parts stay in order, and no other field changes. The list of the parts
is determined by the map, and so is the sum of their sizes, which is refused exactly where it does
not fit a word.

One fact carries the calls: where a number cuts the list, any part with that number, or none, can be
put in place of the one that is there, and only what is found under this number changes
(`Upload.Ordered.replaced`).

Parts out of order are not spoken of. A search can miss parts there.
-/

namespace FileCatalog

/-! ## The calls -/

/-- A call on the parts of an upload. -/
inductive PartCall where
  | insert (part : Part)
  | remove (number : UInt16)
  | find (number : UInt16)

/-- What the call leaves under a number, a part or none. It is `none` if the call leaves the number
alone. -/
def PartCall.left? (number : UInt16) : PartCall → Option (Option Part)
  | .insert p => if p.number = number then some (some p) else .none
  | .remove n => if n = number then some .none else .none
  | .find _ => .none

/-- Calls one after the other: where they lead, and what each of them answers. -/
def PartCall.inTurn {σ : Type} (call : σ → PartCall → σ × Option Part) :
    σ → List PartCall → σ × List (Option Part)
  | s, [] => (s, [])
  | s, c :: rest =>
    let after := call s c
    let others := inTurn call after.1 rest
    (others.1, after.2 :: others.2)

/-- The upload after a call, and the part that the call answers with. -/
def Upload.call (u : Upload) : PartCall → Upload × Option Part
  | .insert p => u.insertPart p
  | .remove number => u.removePart number
  | .find number => (u, u.part? number)

/-- The upload after calls in turn, and their answers. -/
def Upload.run (u : Upload) (calls : List PartCall) : Upload × List (Option Part) :=
  PartCall.inTurn Upload.call u calls

/-- A map from part numbers to parts. -/
abbrev PartMap := UInt16 → Option Part

namespace PartMap

/-- The map after a call, and the part that the map had under the number. -/
def call (m : PartMap) : PartCall → PartMap × Option Part
  | .insert p => (Function.update m p.number (some p), m p.number)
  | .remove number => (Function.update m number none, m number)
  | .find number => (m, m number)

/-- The map after calls in turn, and their answers. -/
def run (m : PartMap) (calls : List PartCall) : PartMap × List (Option Part) :=
  PartCall.inTurn call m calls

/-- The sizes of all parts of the map added up. -/
def sizes (m : PartMap) : Nat := ∑ number, (m number).elim 0 (·.size.toNat)

/-- The sum of the sizes where it is a word. -/
def totalSize (m : PartMap) : Except ArithmeticFault UInt64 :=
  if m.sizes < UInt64.size then .ok (UInt64.ofNat m.sizes) else .error .additionOverflow

private theorem update_eq_getD (m : PartMap) (n number : UInt16) (part? : Option Part) :
    Function.update m n part? number =
      (if n = number then some part? else none).getD (m number) := by
  by_cases own : n = number
  · subst own
    rw [Function.update_self, if_pos rfl, Option.getD_some]
  · rw [Function.update_of_ne (Ne.symm own), if_neg own, Option.getD_none]

theorem call_apply (m : PartMap) (c : PartCall) (number : UInt16) :
    (m.call c).1 number = (c.left? number).getD (m number) := by
  cases c with
  | insert p => exact update_eq_getD m p.number number (some p)
  | remove n => exact update_eq_getD m n number none
  | find n => rfl

/-- Under a number stands what the last call left there that left something there. -/
theorem run_apply (m : PartMap) (calls : List PartCall) (number : UInt16) :
    (run m calls).1 number =
      (calls.filterMap (·.left? number)).getLastD (m number) := by
  induction calls generalizing m with
  | nil => rfl
  | cons c rest ih =>
    have later : (run m (c :: rest)).1 number =
        (rest.filterMap (·.left? number)).getLastD ((m.call c).1 number) := ih _
    rw [later, call_apply]
    cases left : c.left? number with
    | none => simp [left]
    | some part? => simp [left, List.getLastD_eq_getLast?, List.getLast?_cons]

end PartMap

/-! ## One part in place of another -/

namespace Upload

variable {u : Upload}

/-- Where a number cuts the parts, another part with the number, or none, changes what is found
under this number, and nothing else. -/
theorem Ordered.replaced (ordered : u.Ordered) {number : UInt16} {front back : List Part}
    {own? new? : Option Part} (cut : Part.Cut u.parts number front own? back)
    (own : ∀ p ∈ new?, p.number = number) :
    let u' : Upload := { u with parts := front ++ (new?.toList ++ back) }
    u'.Ordered ∧ u'.part? = Function.update u.part? number new? := by
  intro u'
  have cut' : Part.Cut u'.parts number front new? back := cut.replaced own
  have ordered' : u'.Ordered := cut'.ascending_iff.mpr (cut.ascending_iff.mp ordered)
  refine ⟨ordered', ?_⟩
  funext n
  refine Option.ext fun p => ?_
  rw [ordered'.part?_eq_some_iff]
  by_cases here : n = number
  · subst here
    rw [Function.update_self, cut'.mem_own_iff]
  · rw [Function.update_of_ne here, ordered.part?_eq_some_iff]
    refine and_congr_left fun numbered => ?_
    have other : p.number ≠ number := numbered ▸ here
    rw [cut'.mem_other_iff other, cut.mem_other_iff other]

/-- A call answers as the map does, and leads to where the map is led. -/
theorem Ordered.call_agrees (ordered : u.Ordered) (c : PartCall) :
    (u.call c).1.Ordered ∧ (u.call c).1.part? = (PartMap.call u.part? c).1 ∧
      (u.call c).2 = (PartMap.call u.part? c).2 := by
  cases c with
  | insert p =>
    obtain ⟨front, own?, back, cut⟩ := ordered.exists_cutAt p.number
    have inserted : u.call (.insert p) = ({ u with parts := front ++ p :: back }, own?) :=
      cut.inserted p rfl
    have own : ∀ q ∈ some p, q.number = p.number := fun q hq => Option.some.inj hq ▸ rfl
    obtain ⟨ordered', found⟩ := ordered.replaced cut.toCut own
    rw [inserted]
    exact ⟨ordered', found, cut.found.symm⟩
  | remove number =>
    obtain ⟨front, own?, back, cut⟩ := ordered.exists_cutAt number
    have removed : u.call (.remove number) = ({ u with parts := front ++ back }, own?) :=
      cut.removed
    have own : ∀ q ∈ (none : Option Part), q.number = number := nofun
    obtain ⟨ordered', found⟩ := ordered.replaced cut.toCut own
    rw [removed]
    exact ⟨ordered', found, cut.found.symm⟩
  | find number => exact ⟨ordered, rfl, rfl⟩

/-- Calls change no field but the parts. -/
theorem call_eq (u : Upload) (c : PartCall) :
    (u.call c).1 = { u with parts := (u.call c).1.parts } := by
  cases c with
  | insert p =>
    show (u.insertPart p).1 = { u with parts := (u.insertPart p).1.parts }
    unfold insertPart
    cases Part.locate u.parts p.number <;> rfl
  | remove number =>
    show (u.removePart number).1 = { u with parts := (u.removePart number).1.parts }
    unfold removePart
    cases Part.locate u.parts number <;> rfl
  | find number => rfl

/-- Calls in turn answer as the map does, and lead to where the map is led. -/
theorem Ordered.run_agrees (ordered : u.Ordered) (calls : List PartCall) :
    (u.run calls).1.Ordered ∧
      (u.run calls).1.part? = (PartMap.run u.part? calls).1 ∧
      (u.run calls).2 = (PartMap.run u.part? calls).2 := by
  induction calls generalizing u with
  | nil => exact ⟨ordered, rfl, rfl⟩
  | cons c rest ih =>
    obtain ⟨ordered', found, answer⟩ := ordered.call_agrees c
    obtain ⟨ordered'', found', answers⟩ := ih ordered'
    rw [found] at found' answers
    refine ⟨ordered'', found', ?_⟩
    show (u.call c).2 :: ((u.call c).1.run rest).2 = _
    rw [answer, answers]
    rfl

/-- Calls in turn change no field but the parts. -/
theorem run_eq (u : Upload) (calls : List PartCall) :
    (u.run calls).1 = { u with parts := (u.run calls).1.parts } := by
  induction calls generalizing u with
  | nil => rfl
  | cons c rest ih =>
    have later : (u.run (c :: rest)).1 =
        { (u.call c).1 with parts := (u.run (c :: rest)).1.parts } := ih _
    rw [call_eq] at later
    exact later

/-- The parts in order are determined by what is found. -/
theorem Ordered.parts_eq {u' : Upload} (ordered : u.Ordered) (ordered' : u'.Ordered)
    (same : u.part? = u'.part?) : u.parts = u'.parts := by
  have asymm : Std.Antisymm fun p q : Part => p.number < q.number :=
    ⟨fun p q less greater => absurd greater (UInt16.lt_asymm less)⟩
  have irrefl : Std.Irrefl fun p q : Part => p.number < q.number :=
    ⟨fun p => UInt16.lt_irrefl p.number⟩
  refine List.Pairwise.eq_of_mem_iff ordered ordered' fun p => ?_
  have found : u.part? p.number = some p ↔ u'.part? p.number = some p := by rw [same]
  simpa [ordered.part?_eq_some_iff, ordered'.part?_eq_some_iff] using found

/-! ## The sum of the sizes -/

/-- Adding sizes one after the other is refused exactly where their sum is no word. -/
theorem foldlM_addChecked (parts : List Part) (sum : UInt64) :
    parts.foldlM (fun sum p => Counting.addChecked sum p.size) sum =
      if sum.toNat + (parts.map (·.size.toNat)).sum < UInt64.size then
        .ok (UInt64.ofNat (sum.toNat + (parts.map (·.size.toNat)).sum))
      else .error .additionOverflow := by
  induction parts generalizing sum with
  | nil =>
    rw [List.map_nil, List.sum_nil, Nat.add_zero, if_pos sum.toNat_lt, UInt64.ofNat_toNat]
    rfl
  | cons p rest ih =>
    rw [List.foldlM_cons, List.map_cons, List.sum_cons, ← Nat.add_assoc]
    by_cases fits : sum.toNat + p.size.toNat < UInt64.size
    · have first : Counting.addChecked sum p.size = .ok (sum + p.size) := if_pos fits
      have value : (sum + p.size).toNat = sum.toNat + p.size.toNat := by
        rw [UInt64.toNat_add, Nat.mod_eq_of_lt fits]
      rw [first, ← value]
      exact ih (sum + p.size)
    · have first : Counting.addChecked sum p.size = .error .additionOverflow := if_neg fits
      rw [first, if_neg (by omega)]
      rfl

/-- In order, each number has one part, so the parts are counted once by their numbers. -/
theorem Ordered.sum_sizes (ordered : u.Ordered) :
    (u.parts.map (·.size.toNat)).sum = PartMap.sizes u.part? := by
  let size (number : UInt16) : Nat := (u.part? number).elim 0 (·.size.toNat)
  have own : ∀ p ∈ u.parts, p.size.toNat = size p.number := by
    intro p member
    simp only [size, ordered.part?_eq_some_iff.mpr ⟨member, rfl⟩, Option.elim_some]
  have once : (u.parts.map (·.number)).Nodup :=
    List.pairwise_map.mpr (List.Pairwise.imp (fun less => UInt16.ne_of_lt less) ordered)
  have absent : ∀ number, number ∉ (u.parts.map (·.number)).toFinset → size number = 0 := by
    intro number unlisted
    cases found : u.part? number with
    | none => simp only [size, found, Option.elim_none]
    | some p =>
      obtain ⟨member, numbered⟩ := ordered.part?_eq_some_iff.mp found
      have listed : number ∈ u.parts.map (·.number) := List.mem_map.mpr ⟨p, member, numbered⟩
      exact absurd (List.mem_toFinset.mpr listed) unlisted
  calc (u.parts.map (·.size.toNat)).sum
      = ((u.parts.map (·.number)).map size).sum := by
        rw [List.map_map, List.map_congr_left own]
        rfl
    _ = ∑ number ∈ (u.parts.map (·.number)).toFinset, size number :=
        (List.sum_toFinset size once).symm
    _ = PartMap.sizes u.part? :=
        Finset.sum_subset (Finset.subset_univ _) fun number _ => absent number

theorem Ordered.totalSize (ordered : u.Ordered) : u.totalSize = PartMap.totalSize u.part? := by
  have zero : (0 : UInt64).toNat = 0 := rfl
  rw [Upload.totalSize, foldlM_addChecked, zero, Nat.zero_add, ordered.sum_sizes]
  rfl

-- One octet more than a word can count.
example : Upload.totalSize { parts := [{ number := 1, size := 0xFFFFFFFFFFFFFFFF },
    { number := 2, size := 1 }] } = .error .additionOverflow := rfl

theorem fresh_ordered (now : Int64) (key upload : String) : (fresh now key upload).Ordered :=
  List.Pairwise.nil

theorem fresh_part? (now : Int64) (key upload : String) :
    (fresh now key upload).part? = fun _ => none := by
  funext number
  rw [Option.eq_none_iff_forall_ne_some]
  intro p found
  have member := ((fresh_ordered now key upload).part?_eq_some_iff.mp found).1
  exact absurd member List.not_mem_nil

end Upload

/-- **The parts of an upload are a map.** On parts in order, calls that insert, remove and look up
parts answer as a map from numbers to parts does, and leave what it holds, in order again, and no
other field changed. The map holds under each number the part that was inserted last, unless it was
removed since. Calls that lead to the same map leave the same list, and the sum of the sizes is that
of the map, refused exactly where it is no word. -/
theorem parts_are_a_map :
    (∀ {u : Upload}, u.Ordered → ∀ calls : List PartCall,
      let u' := (u.run calls).1
      let m := (PartMap.run u.part? calls).1
      (u.run calls).2 = (PartMap.run u.part? calls).2 ∧
        u'.Ordered ∧ u' = { u with parts := u'.parts } ∧ u'.part? = m ∧
          (∀ number, m number =
            (calls.filterMap (·.left? number)).getLastD (u.part? number)) ∧
          u'.totalSize = m.totalSize) ∧
      (∀ (now : Int64) (key upload : String),
        (Upload.fresh now key upload).Ordered ∧
          (Upload.fresh now key upload).part? = fun _ => none) ∧
      ∀ {u v : Upload}, u.Ordered → v.Ordered → ∀ calls others : List PartCall,
        (PartMap.run u.part? calls).1 = (PartMap.run v.part? others).1 →
          (u.run calls).1.parts = (v.run others).1.parts := by
  refine ⟨?calls, fun _ _ _ => ⟨Upload.fresh_ordered _ _ _, Upload.fresh_part? _ _ _⟩, ?same⟩
  case calls =>
    intro u ordered calls u' m
    obtain ⟨ordered', found, answers⟩ := ordered.run_agrees calls
    refine ⟨answers, ordered', u.run_eq calls, found, PartMap.run_apply u.part? calls, ?_⟩
    exact ordered'.totalSize.trans (congrArg PartMap.totalSize found)
  case same =>
    intro u v ordered ordered' calls others same
    obtain ⟨left, found, -⟩ := ordered.run_agrees calls
    obtain ⟨right, found', -⟩ := ordered'.run_agrees others
    exact left.parts_eq right (found.trans (same.trans found'.symm))

/-- Parts that are inserted from the larger number on, one of them again and the other taken away,
leave what one insertion leaves. -/
theorem parts_are_a_map_replaced :
    let u := Upload.fresh 5 "object" "upload"
    let calls : List PartCall := [.insert { number := 2, size := 3 },
      .insert { number := 1, size := 4 }, .insert { number := 2, size := 9 }, .remove 1, .find 1]
    let others : List PartCall := [.insert { number := 2, size := 9 }]
    (u.run calls).2 =
        [none, none, some { number := 2, size := 3 }, some { number := 1, size := 4 }, none] ∧
      (u.run calls).1.parts = (u.run others).1.parts := by
  intro u calls others
  obtain ⟨agree, fresh, determined⟩ := parts_are_a_map
  obtain ⟨ordered, empty⟩ := fresh 5 "object" "upload"
  have same : (PartMap.run u.part? calls).1 = (PartMap.run u.part? others).1 := by
    show Function.update (Function.update (Function.update (Function.update u.part? 2 _) 1 _) 2 _)
      1 none = Function.update u.part? 2 _
    rw [empty]
    funext number
    by_cases first : number = 1
    · subst first
      rfl
    · by_cases second : number = 2
      · subst second
        rfl
      · simp only [Function.update_of_ne first, Function.update_of_ne second]
  refine ⟨?_, determined ordered ordered calls others same⟩
  rw [(agree ordered calls).1, empty]
  rfl

end FileCatalog
