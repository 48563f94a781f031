import FileCatalog.Record.Upload
import Mathlib.Data.List.Basic

/-!
# Parts in order

The parts of an upload are found by halving their list, which finds them if the list ascends by part
number (`Upload.Ordered`). `Part.locate_spec` is the one law of the search: on such a list it cuts
the list at the part that was looked for, or at the place where it belongs. What the operations on
parts do is read off the cut.

Nothing is said of a list that does not ascend. The search has an outcome there too, but it can miss
parts that the list has.
-/

namespace FileCatalog

/-- The part numbers ascend, so no two are the same. -/
def Part.Ascending (parts : List Part) : Prop := parts.Pairwise (·.number < ·.number)

instance (parts : List Part) : Decidable (Part.Ascending parts) := by
  unfold Part.Ascending
  infer_instance

/-- The parts of the upload ascend by number. -/
def Upload.Ordered (u : Upload) : Prop := Part.Ascending u.parts

instance (u : Upload) : Decidable u.Ordered := by
  unfold Upload.Ordered
  infer_instance

namespace Part

variable {parts : List Part} {number : UInt16}

/-! ## Halving -/

/-- Of parts in order, an earlier one has a smaller number. -/
theorem Ascending.number_lt (asc : Ascending parts) {i j : Nat} {p q : Part}
    (hp : parts[i]? = some p) (hq : parts[j]? = some q) (before : i < j) : p.number < q.number := by
  obtain ⟨hi, rfl⟩ := List.getElem?_eq_some_iff.mp hp
  obtain ⟨hj, rfl⟩ := List.getElem?_eq_some_iff.mp hq
  exact List.pairwise_iff_getElem.mp asc i j hi hj before

/-- The index is the last one to look at: the part there is not above the number, unless it is the
first, and all parts behind it are. -/
structure IsLast (parts : List Part) (number : UInt16) (last : Nat) : Prop where
  inside : last < parts.length
  atMost : ∀ p, 0 < last → parts[last]? = some p → p.number ≤ number
  above : ∀ i p, last < i → parts[i]? = some p → number < p.number

/-- Halving keeps what is known of the two ends, so in the end it is known of one index. -/
theorem halve_isLast (asc : Ascending parts) {base size : Nat} (some : 0 < size)
    (inside : base + size ≤ parts.length)
    (atMost : ∀ p, 0 < base → parts[base]? = .some p → p.number ≤ number)
    (above : ∀ i p, base + size ≤ i → parts[i]? = .some p → number < p.number) :
    IsLast parts number (halve parts number base size) := by
  induction size using Nat.strongRecOn generalizing base with
  | ind size ih =>
    rw [halve]
    by_cases small : size ≤ 1
    · rw [if_pos small]
      refine ⟨by omega, atMost, fun i p behind => above i p (by omega)⟩
    · rw [if_neg small]
      have middle : base + size / 2 < parts.length := by omega
      simp only [List.getElem?_eq_getElem middle]
      have there := List.getElem?_eq_getElem middle
      by_cases less : number < parts[base + size / 2].number
      · rw [if_pos less]
        refine ih (size - size / 2) (by omega) (by omega) (by omega) atMost ?_
        intro i p behind found
        rcases Nat.eq_or_lt_of_le (show base + size / 2 ≤ i by omega) with rfl | later
        · rw [there] at found
          exact Option.some.inj found ▸ less
        · exact UInt16.lt_trans less (asc.number_lt there found later)
      · rw [if_neg less]
        refine ih (size - size / 2) (by omega) (by omega) (by omega) ?_ ?_
        · intro p _ found
          rw [there] at found
          exact Option.some.inj found ▸ UInt16.not_lt.mp less
        · exact fun i p behind => above i p (by omega)

/-- The parts below a number, the part that has it, if there is one, and the parts above. -/
structure Cut (parts : List Part) (number : UInt16) (front : List Part) (own? : Option Part)
    (back : List Part) : Prop where
  whole : parts = front ++ (own?.toList ++ back)
  below : ∀ q ∈ front, q.number < number
  own : ∀ p ∈ own?, p.number = number
  above : ∀ q ∈ back, number < q.number

section Cut

variable {front back : List Part} {own? : Option Part}

/-- The list at the cut, with another part of this number, or none. -/
theorem Cut.replaced (cut : Cut parts number front own? back) {new? : Option Part}
    (own : ∀ p ∈ new?, p.number = number) :
    Cut (front ++ (new?.toList ++ back)) number front new? back :=
  ⟨rfl, cut.below, own, cut.above⟩

/-- A list ascends if it does on both sides of a cut. -/
theorem Cut.ascending_iff (cut : Cut parts number front own? back) :
    Ascending parts ↔ Ascending front ∧ Ascending back := by
  have whole := cut.whole
  constructor
  · intro asc
    rw [whole] at asc
    obtain ⟨lower, others, -⟩ := List.pairwise_append.mp asc
    exact ⟨lower, (List.pairwise_append.mp others).2.1⟩
  · rintro ⟨lower, upper⟩
    have across : ∀ p ∈ front, ∀ q ∈ back, p.number < q.number := fun p hp q hq =>
      UInt16.lt_trans (cut.below p hp) (cut.above q hq)
    rw [whole]
    cases own? with
    | none => exact List.pairwise_append.mpr ⟨lower, upper, across⟩
    | some own =>
      have same : own.number = number := cut.own own rfl
      refine List.pairwise_append.mpr ⟨lower, List.pairwise_cons.mpr ⟨?_, upper⟩, ?_⟩
      · exact fun q hq => same ▸ cut.above q hq
      · intro p hp q hq
        rcases List.mem_cons.mp hq with rfl | above
        · exact same ▸ cut.below p hp
        · exact across p hp q above

/-- At the cut stands the part with the number, and no other. -/
theorem Cut.mem_own_iff (cut : Cut parts number front own? back) {p : Part} :
    p ∈ parts ∧ p.number = number ↔ own? = some p := by
  rw [cut.whole]
  constructor
  · rintro ⟨member, rfl⟩
    rcases List.mem_append.mp member with below | member
    · exact absurd (cut.below p below) (UInt16.lt_irrefl _)
    · rcases List.mem_append.mp member with own | above
      · exact Option.mem_toList.mp own
      · exact absurd (cut.above p above) (UInt16.lt_irrefl _)
  · rintro rfl
    exact ⟨by simp, cut.own p rfl⟩

/-- A part with another number is in front of the cut or behind it. -/
theorem Cut.mem_other_iff (cut : Cut parts number front own? back) {p : Part}
    (other : p.number ≠ number) : p ∈ parts ↔ p ∈ front ++ back := by
  have notOwn : p ∉ own?.toList := fun own => other (cut.own p (Option.mem_toList.mp own))
  rw [cut.whole, List.mem_append, List.mem_append, List.mem_append, or_iff_right notOwn]

end Cut

/-- The last part up to a number cuts the parts: none behind it has that number or a smaller one. -/
theorem IsLast.exists_split {last : Nat} (h : IsLast parts number last) :
    ∃ front p back, parts = front ++ p :: back ∧ front.length = last ∧
      (0 < last → p.number ≤ number) ∧ ∀ q ∈ back, number < q.number := by
  have inside := h.inside
  have there := List.getElem?_eq_getElem inside
  refine ⟨parts.take last, parts[last], parts.drop (last + 1), ?_, ?_, ?_, ?_⟩
  · rw [← List.drop_eq_getElem_cons inside, List.take_append_drop]
  · exact List.length_take_of_le (Nat.le_of_lt inside)
  · exact fun behind => h.atMost _ behind there
  · intro q member
    obtain ⟨i, found⟩ := List.mem_iff_getElem?.mp member
    rw [List.getElem?_drop] at found
    exact h.above _ q (by omega) found

/-- On a list that ascends, the search ends where a number cuts the list. -/
theorem locate_cut (asc : Ascending parts) (number : UInt16) :
    ∃ front own? back, Cut parts number front own? back ∧
      locate parts number =
        match own? with
        | some _ => .at front.length
        | none => .before front.length := by
  cases nonempty : parts with
  | nil =>
    have start : halve [] number 0 0 = 0 := by simp [halve]
    refine ⟨[], none, [], ⟨rfl, by simp, by simp, by simp⟩, ?_⟩
    simp [locate, start]
  | cons first rest =>
    have last : IsLast parts number (halve parts number 0 parts.length) := by
      refine halve_isLast asc (by simp [nonempty]) (Nat.le_of_eq (Nat.zero_add _)) ?_ ?_
      · exact fun _ before => absurd before (Nat.lt_irrefl 0)
      · intro i p behind found
        rw [List.getElem?_eq_none (by omega)] at found
        cases found
    rw [← nonempty, locate]
    generalize halve parts number 0 parts.length = i at last ⊢
    obtain ⟨front, p, back, rfl, rfl, atMost, above⟩ := last.exists_split
    have below := (List.pairwise_append.mp asc).2.2
    simp only [List.getElem?_append_right (Nat.le_refl _), Nat.sub_self, List.getElem?_cons_zero]
    by_cases same : p.number = number
    · refine ⟨front, some p, back, ⟨rfl, ?_, by simpa using same, above⟩, if_pos same⟩
      exact fun q member => same ▸ below q member p List.mem_cons_self
    · rw [if_neg same]
      by_cases less : p.number < number
      · refine ⟨front ++ [p], none, back, ⟨by simp, ?_, by simp, above⟩, by simp [if_pos less]⟩
        intro q member
        rcases List.mem_append.mp member with front | own
        · exact UInt16.lt_trans (below q front p List.mem_cons_self) less
        · exact List.mem_singleton.mp own ▸ less
      · -- The part is above the number, so it is the first.
        have greater : number < p.number :=
          UInt16.lt_of_le_of_ne (UInt16.not_lt.mp less) (Ne.symm same)
        have first : front = [] := by
          by_contra some
          exact UInt16.not_lt.mpr (atMost (List.length_pos_iff.mpr some)) greater
        subst first
        refine ⟨[], none, p :: back, ⟨rfl, by simp, by simp, ?_⟩, if_neg less⟩
        intro q member
        rcases List.mem_cons.mp member with rfl | behind
        · exact greater
        · exact above q behind

end Part

namespace Upload

variable {u : Upload}

/-- An insertion at the length of the front comes right behind it. -/
private theorem insertIdx_length_append {α : Type} (front back : List α) (a : α) :
    (front ++ back).insertIdx front.length a = front ++ a :: back := by
  induction front with
  | nil => rfl
  | cons b front ih =>
    simpa only [List.cons_append, List.length_cons, List.insertIdx_succ_cons] using congrArg _ ih

/-- What the operations on a part with a number do to parts in order, told by where the number cuts
the list of parts. -/
structure CutAt (u : Upload) (number : UInt16) (front : List Part) (own? : Option Part)
    (back : List Part) : Prop extends Part.Cut u.parts number front own? back where
  found : u.part? number = own?
  inserted : ∀ p : Part, p.number = number →
    u.insertPart p = ({ u with parts := front ++ p :: back }, own?)
  removed : u.removePart number = ({ u with parts := front ++ back }, own?)

/-- Ordered parts can be cut at any number. -/
theorem Ordered.exists_cutAt (ordered : u.Ordered) (number : UInt16) :
    ∃ front own? back, u.CutAt number front own? back := by
  obtain ⟨front, own?, back, cut, place⟩ := Part.locate_cut ordered number
  have whole := cut.whole
  refine ⟨front, own?, back, cut, ?_, ?_, ?_⟩
  · rw [part?, place]
    cases own? with
    | none => rfl
    | some p => simp [whole]
  · rintro p rfl
    rw [insertPart, place]
    cases own? with
    | none => simp [whole, insertIdx_length_append]
    | some p' => simp [whole]
  · rw [removePart, place]
    cases own? with
    | none => exact congrArg (fun parts => ({ u with parts }, none)) whole
    | some p => simp [whole, List.eraseIdx_append]

/-- On parts in order, a part is found by its number, and nothing else is. -/
theorem Ordered.part?_eq_some_iff (ordered : u.Ordered) {number : UInt16} {p : Part} :
    u.part? number = some p ↔ p ∈ u.parts ∧ p.number = number := by
  obtain ⟨front, own?, back, cut⟩ := ordered.exists_cutAt number
  rw [cut.found, cut.toCut.mem_own_iff]

/-- An inserted part takes the place of the one with its number, or stands where it belongs, so the
parts are in order again. -/
theorem Ordered.insertPart (ordered : u.Ordered) (p : Part) : (u.insertPart p).1.Ordered := by
  obtain ⟨front, own?, back, cut⟩ := ordered.exists_cutAt p.number
  have own : ∀ q ∈ some p, q.number = p.number := fun q hq => Option.some.inj hq ▸ rfl
  have replaced := cut.toCut.replaced own
  rw [cut.inserted p rfl]
  exact replaced.ascending_iff.mpr (cut.toCut.ascending_iff.mp ordered)

end Upload

end FileCatalog
