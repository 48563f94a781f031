import FileCatalog.OrderedMap

/-!
# Laws of maps in byte order

A map is known by what it answers. `get?_eq_some_iff` ties the answers to the entries: a key has a
value exactly when the two stand together in the list. From it come the laws of the operations,
each as one equation on `get?`, and `ext_get?`: maps that answer alike are equal.
-/

namespace FileCatalog.OrderedMap

open ByteOrdered (bytes bytes_injective)

variable {κ ν : Type} [ByteOrdered κ]

/-- The entries ascend by the octets of their keys. -/
private abbrev Ascending (es : List (κ × ν)) : Prop :=
  es.Pairwise (fun a b => bytes a.1 < bytes b.1)

/-- Of two byte strings one comes first, unless they are equal. -/
theorem bytes_cases (a b : Bytes) : a < b ∨ a = b ∨ b < a := by
  by_cases hab : a < b
  · exact Or.inl hab
  · by_cases hba : b < a
    · exact Or.inr (Or.inr hba)
    · exact Or.inr (Or.inl (List.le_antisymm (List.not_lt.1 hba) (List.not_lt.1 hab)))

/-- Of ascending entries, those with the octets of one key are one entry. -/
private theorem eq_of_mem {es : List (κ × ν)} (asc : Ascending es) {a b : κ × ν} (ha : a ∈ es)
    (hb : b ∈ es) (h : bytes a.1 = bytes b.1) : a = b := by
  induction es with
  | nil => exact absurd ha (List.not_mem_nil)
  | cons e es ih =>
    obtain ⟨first, rest⟩ := List.pairwise_cons.1 asc
    rcases List.mem_cons.1 ha with hae | ha'
    · rcases List.mem_cons.1 hb with hbe | hb'
      · rw [hae, hbe]
      · exact absurd (h ▸ hae ▸ first b hb') (List.lt_irrefl _)
    · rcases List.mem_cons.1 hb with hbe | hb'
      · exact absurd (h ▸ hbe ▸ first a ha') (List.lt_irrefl _)
      · exact ih rest ha' hb'

/-- A key has a value exactly when the two are an entry. -/
theorem get?_eq_some_iff {m : OrderedMap κ ν} {k : κ} {v : ν} :
    m.get? k = some v ↔ (k, v) ∈ m.entries := by
  unfold get?
  constructor
  · intro h
    obtain ⟨e, he, rfl⟩ := Option.map_eq_some_iff.1 h
    have hk : bytes e.1 = bytes k := by simpa using List.find?_some he
    have hm := List.mem_of_find?_eq_some he
    rwa [← bytes_injective hk]
  · intro h
    cases hf : m.entries.find? fun e => bytes e.1 = bytes k with
    | none => exact absurd (List.find?_eq_none.1 hf _ h) (by simp)
    | some e =>
      have hk : bytes e.1 = bytes k := by simpa using List.find?_some hf
      have he := eq_of_mem m.ascending (List.mem_of_find?_eq_some hf) h hk
      rw [he, Option.map_some]

/-- A map finds nothing exactly where no entry has the key. -/
theorem get?_eq_none_iff {m : OrderedMap κ ν} {k : κ} :
    m.get? k = none ↔ ∀ v, (k, v) ∉ m.entries := by
  constructor
  · intro h v hv
    rw [get?_eq_some_iff.2 hv] at h
    cases h
  · intro h
    cases hv : m.get? k with
    | none => rfl
    | some v => exact absurd (get?_eq_some_iff.1 hv) (h v)

@[simp] theorem get?_empty (k : κ) : (∅ : OrderedMap κ ν).get? k = none := rfl

/-- After an insertion there are the new entry and those of other keys. -/
theorem mem_entries_insert {m : OrderedMap κ ν} {k : κ} {v : ν} {e : κ × ν} :
    e ∈ (m.insert k v).entries ↔ e = (k, v) ∨ e.1 ≠ k ∧ e ∈ m.entries := by
  simp only [insert, below, above, List.mem_append, List.mem_cons, List.mem_filter,
    decide_eq_true_eq]
  constructor
  · rintro (⟨he, hlt⟩ | rfl | ⟨he, hlt⟩)
    · exact Or.inr ⟨fun h => List.lt_irrefl _ (h ▸ hlt), he⟩
    · exact Or.inl rfl
    · exact Or.inr ⟨fun h => List.lt_irrefl _ (h ▸ hlt), he⟩
  · rintro (rfl | ⟨hne, he⟩)
    · exact Or.inr (Or.inl rfl)
    · rcases bytes_cases (bytes e.1) (bytes k) with hlt | heq | hlt
      · exact Or.inl ⟨he, hlt⟩
      · exact absurd (bytes_injective heq) hne
      · exact Or.inr (Or.inr ⟨he, hlt⟩)

/-- After an erasure there are the entries of other keys. -/
theorem mem_entries_erase {m : OrderedMap κ ν} {k : κ} {e : κ × ν} :
    e ∈ (m.erase k).entries ↔ e.1 ≠ k ∧ e ∈ m.entries := by
  simp only [erase, List.mem_filter, decide_eq_true_eq]
  constructor
  · rintro ⟨he, hne⟩
    exact ⟨fun h => hne (h ▸ rfl), he⟩
  · rintro ⟨hne, he⟩
    exact ⟨he, fun h => hne (bytes_injective h)⟩

@[simp] theorem get?_insert_self (m : OrderedMap κ ν) (k : κ) (v : ν) :
    (m.insert k v).get? k = some v :=
  get?_eq_some_iff.2 (mem_entries_insert.2 (Or.inl rfl))

theorem get?_insert_of_ne {m : OrderedMap κ ν} {k j : κ} {v : ν} (h : j ≠ k) :
    (m.insert k v).get? j = m.get? j := by
  refine Option.ext fun w => ?_
  rw [get?_eq_some_iff, get?_eq_some_iff, mem_entries_insert]
  constructor
  · rintro (he | ⟨_, he⟩)
    · exact absurd (congrArg Prod.fst he) h
    · exact he
  · intro he
    exact Or.inr ⟨h, he⟩

@[simp] theorem get?_erase_self (m : OrderedMap κ ν) (k : κ) : (m.erase k).get? k = none := by
  rw [get?_eq_none_iff]
  intro v hv
  exact (mem_entries_erase.1 hv).1 rfl

theorem get?_erase_of_ne {m : OrderedMap κ ν} {k j : κ} (h : j ≠ k) :
    (m.erase k).get? j = m.get? j := by
  refine Option.ext fun w => ?_
  rw [get?_eq_some_iff, get?_eq_some_iff, mem_entries_erase]
  constructor
  · rintro ⟨_, he⟩
    exact he
  · intro he
    exact ⟨h, he⟩

/-! ## Equality -/

/-- Ascending lists with the same members are equal. -/
theorem eq_of_mem_iff {es fs : List (κ × ν)} (he : Ascending es) (hf : Ascending fs)
    (h : ∀ e, e ∈ es ↔ e ∈ fs) : es = fs := by
  induction es generalizing fs with
  | nil =>
    cases fs with
    | nil => rfl
    | cons f fs => exact absurd ((h f).2 List.mem_cons_self) List.not_mem_nil
  | cons e es ih =>
    cases fs with
    | nil => exact absurd ((h e).1 List.mem_cons_self) List.not_mem_nil
    | cons f fs =>
      obtain ⟨eFirst, eRest⟩ := List.pairwise_cons.1 he
      obtain ⟨fFirst, fRest⟩ := List.pairwise_cons.1 hf
      have hef : e = f := by
        rcases List.mem_cons.1 ((h e).1 List.mem_cons_self) with hef | hmem
        · exact hef
        · rcases List.mem_cons.1 ((h f).2 List.mem_cons_self) with hfe | hmem'
          · exact hfe.symm
          · exact absurd (eFirst f hmem') (List.lt_asymm (fFirst e hmem))
      subst hef
      congr 1
      refine ih eRest fRest fun x => ⟨fun hx => ?_, fun hx => ?_⟩
      · rcases List.mem_cons.1 ((h x).1 (List.mem_cons_of_mem _ hx)) with rfl | hx'
        · exact absurd (eFirst x hx) (List.lt_irrefl _)
        · exact hx'
      · rcases List.mem_cons.1 ((h x).2 (List.mem_cons_of_mem _ hx)) with rfl | hx'
        · exact absurd (fFirst x hx) (List.lt_irrefl _)
        · exact hx'

/-- Maps that answer alike for every key are equal. -/
theorem ext_get? {m n : OrderedMap κ ν} (h : ∀ k, m.get? k = n.get? k) : m = n := by
  refine ext (eq_of_mem_iff m.ascending n.ascending fun e => ?_)
  rw [← get?_eq_some_iff (k := e.1) (v := e.2), ← get?_eq_some_iff (k := e.1) (v := e.2), h]

/-! ## Maps from lists -/

/-- An insertion above all keys comes last. -/
theorem entries_insert_of_above {m : OrderedMap κ ν} {k : κ} (v : ν)
    (h : ∀ e ∈ m.entries, bytes e.1 < bytes k) :
    (m.insert k v).entries = m.entries ++ [(k, v)] := by
  have all : m.below k = m.entries := List.filter_eq_self.2 fun e he => by simpa using h e he
  have none : m.above k = [] := List.filter_eq_nil_iff.2 fun e he => by
    simpa using List.le_of_lt (h e he)
  show m.below k ++ (k, v) :: m.above k = m.entries ++ [(k, v)]
  rw [all, none]

/-- Inserting ascending pairs above all keys of a map lists them behind its entries. -/
private theorem entries_foldl_insert (pairs : List (κ × ν)) (m : OrderedMap κ ν)
    (asc : Ascending (m.entries ++ pairs)) :
    (pairs.foldl (fun m e => m.insert e.1 e.2) m).entries = m.entries ++ pairs := by
  induction pairs generalizing m with
  | nil => simp
  | cons e rest ih =>
    have above : ∀ a ∈ m.entries, bytes a.1 < bytes e.1 := fun a ha =>
      (List.pairwise_append.1 asc).2.2 a ha e List.mem_cons_self
    have next := entries_insert_of_above e.2 above
    have split : m.entries ++ e :: rest = (m.insert e.1 e.2).entries ++ rest := by
      rw [next, List.append_assoc]
      rfl
    rw [split] at asc ⊢
    exact ih (m.insert e.1 e.2) asc

/-- A map is made again from its entries. -/
theorem ofList_entries (m : OrderedMap κ ν) : ofList m.entries = m :=
  ext (entries_foldl_insert m.entries empty m.ascending)

/-- Pairs are the entries of their map exactly when they ascend. -/
theorem entries_ofList_eq_iff {pairs : List (κ × ν)} :
    (ofList pairs).entries = pairs ↔ pairs.Pairwise (fun a b => bytes a.1 < bytes b.1) := by
  constructor
  · intro same
    rw [← same]
    exact (ofList pairs).ascending
  · intro asc
    exact entries_foldl_insert pairs empty asc

/-- Insertions in turn bring no entries but their own. -/
private theorem mem_entries_foldl_insert {pairs : List (κ × ν)} {m : OrderedMap κ ν} {e : κ × ν}
    (listed : e ∈ (pairs.foldl (fun m e => m.insert e.1 e.2) m).entries) :
    e ∈ m.entries ∨ e ∈ pairs := by
  induction pairs generalizing m with
  | nil => exact Or.inl listed
  | cons first rest ih =>
    rcases ih listed with before | later
    · rcases mem_entries_insert.1 before with rfl | ⟨-, old⟩
      · exact Or.inr List.mem_cons_self
      · exact Or.inl old
    · exact Or.inr (List.mem_cons_of_mem _ later)

/-- A map from a list holds none but its pairs. -/
theorem mem_of_mem_entries_ofList {pairs : List (κ × ν)} {e : κ × ν}
    (listed : e ∈ (ofList pairs).entries) : e ∈ pairs := by
  rcases mem_entries_foldl_insert listed with before | listed
  · exact absurd before List.not_mem_nil
  · exact listed

section Room

variable {α : Type} (form : κ × ν → List α)

/-- An insertion adds no more than the form of its entry. -/
private theorem length_flatMap_insert_le (m : OrderedMap κ ν) (k : κ) (v : ν) :
    ((m.insert k v).entries.flatMap form).length ≤
      (m.entries.flatMap form).length + (form (k, v)).length := by
  -- No entry comes both before the key and after it.
  have apart : ∀ es : List (κ × ν),
      ((es.filter fun e => bytes e.1 < bytes k).flatMap form).length +
        ((es.filter fun e => bytes k < bytes e.1).flatMap form).length ≤
          (es.flatMap form).length := by
    intro es
    induction es with
    | nil => exact Nat.le_refl 0
    | cons e es ih =>
      rcases bytes_cases (bytes e.1) (bytes k) with before | same | after
      · have notAfter := List.lt_asymm before
        simp only [List.filter_cons, before, notAfter, decide_true, decide_false, if_true,
          Bool.false_eq_true, if_false, List.flatMap_cons, List.length_append]
        omega
      · have irrefl := List.lt_irrefl (bytes k)
        simp only [List.filter_cons, same, irrefl, decide_false, Bool.false_eq_true, if_false,
          List.flatMap_cons, List.length_append]
        omega
      · have notBefore := List.lt_asymm after
        simp only [List.filter_cons, after, notBefore, decide_true, decide_false, if_true,
          Bool.false_eq_true, if_false, List.flatMap_cons, List.length_append]
        omega
  have parts := apart m.entries
  simp only [insert, below, above, List.flatMap_append, List.flatMap_cons, List.length_append]
  omega

/-- Put one after the other, the forms of the entries of a map from a list are no longer than those
of the pairs of the list. -/
theorem length_flatMap_ofList_le (pairs : List (κ × ν)) :
    ((ofList pairs).entries.flatMap form).length ≤ (pairs.flatMap form).length := by
  have step : ∀ m : OrderedMap κ ν,
      ((pairs.foldl (fun m e => m.insert e.1 e.2) m).entries.flatMap form).length ≤
        (m.entries.flatMap form).length + (pairs.flatMap form).length := by
    induction pairs with
    | nil => exact fun m => Nat.le_refl _
    | cons e rest ih =>
      intro m
      have first : ((m.insert e.1 e.2).entries.flatMap form).length ≤
          (m.entries.flatMap form).length + (form e).length :=
        length_flatMap_insert_le form m e.1 e.2
      have others := ih (m.insert e.1 e.2)
      rw [List.flatMap_cons, List.length_append]
      exact Nat.le_trans others (by omega)
  have whole := step empty
  rw [show (empty : OrderedMap κ ν).entries.flatMap form = [] from rfl, List.length_nil,
    Nat.zero_add] at whole
  exact whole

/-- A map from a list has at most one entry for each pair. -/
theorem length_entries_ofList_le (pairs : List (κ × ν)) :
    (ofList pairs).entries.length ≤ pairs.length := by
  simpa using length_flatMap_ofList_le (fun e => [e]) pairs

end Room

/-! ## Ranges -/

/-- A range holds the entries between its ends. -/
theorem mem_range {m : OrderedMap κ ν} {first last : Bytes} {e : κ × ν} :
    e ∈ m.range first last ↔ e ∈ m.entries ∧ first ≤ bytes e.1 ∧ bytes e.1 ≤ last := by
  simp [range]

/-- A range ascends strictly. -/
theorem ascending_range (m : OrderedMap κ ν) (first last : Bytes) :
    (m.range first last).Pairwise (fun a b => bytes a.1 < bytes b.1) :=
  m.ascending.filter _

/-- A range inside another one holds those of its entries that lie between its ends. -/
theorem range_eq_filter_range {m : OrderedMap κ ν} {lower upper first last : Bytes}
    (above : lower ≤ first) (below : last ≤ upper) :
    m.range first last =
      (m.range lower upper).filter fun e => first ≤ bytes e.1 ∧ bytes e.1 ≤ last := by
  unfold range
  rw [List.filter_filter]
  refine List.filter_congr fun e _ => ?_
  rw [← Bool.decide_and, decide_eq_decide]
  constructor
  · rintro ⟨hf, hl⟩
    exact ⟨⟨hf, hl⟩, List.le_trans above hf, List.le_trans hl below⟩
  · rintro ⟨within, -⟩
    exact within

/-- A range whose ends are the wrong way round is empty. -/
theorem range_of_lt {m : OrderedMap κ ν} {first last : Bytes} (h : last < first) :
    m.range first last = [] := by
  refine List.filter_eq_nil_iff.2 fun e _ he => ?_
  obtain ⟨hf, hl⟩ := of_decide_eq_true he
  exact List.not_lt.2 (List.le_trans hf hl) h

end FileCatalog.OrderedMap
