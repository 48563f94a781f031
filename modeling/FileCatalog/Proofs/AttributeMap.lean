import FileCatalog.Proofs.Canonical
import Mathlib.Data.List.Induction
import Mathlib.Logic.Function.Basic

/-!
# Attributes as a map

The attributes of an inode stand for a map from names to values. Each call that sets or removes an
attribute answers with what the map had under the name, and changes the map there and nowhere else.
`attributes_have_one_form` adds that nothing but the inode and the map is in the octets: records are
written alike exactly if both are the same, whatever calls have led to them. In one direction this
is so because the entries are listed by name, in the other because a record is read back from its
octets.

Octets tell records apart only as far as they can be written, with lengths that are words.
-/

namespace FileCatalog

/-- A call that changes attributes. -/
inductive AttributeCall where
  | set (name value : Bytes)
  | remove (name : Bytes)

namespace AttributeCall

/-- The name that the call is about. -/
def name : AttributeCall → Bytes
  | set name _ => name
  | remove name => name

/-- What the call leaves under its name. -/
def left : AttributeCall → Option Bytes
  | set _ value => some value
  | remove _ => none

/-- What calls in turn leave under a name: what the last one on it does, or nothing without any. -/
def lastLeft (calls : List AttributeCall) (name : Bytes) : Option Bytes :=
  (calls.filter (·.name = name)).getLast?.bind left

end AttributeCall

namespace Attributes

variable {a b : Attributes}

/-- The attributes after a call, and the value that the call answers with. -/
def call (a : Attributes) : AttributeCall → Attributes × Option Bytes
  | .set name value => a.set name value
  | .remove name => a.remove name

/-- The attributes after calls in turn. -/
def through (a : Attributes) (calls : List AttributeCall) : Attributes :=
  calls.foldl (fun a c => (a.call c).1) a

/-! ## What calls do -/

/-- A call answers with the value that stood under its name. -/
theorem call_answer (a : Attributes) (c : AttributeCall) : (a.call c).2 = a.get? c.name := by
  cases c <;> rfl

/-- No call changes the inode. -/
theorem call_inode (a : Attributes) (c : AttributeCall) : (a.call c).1.inode = a.inode := by
  cases c <;> rfl

/-- After a call its name has what the call leaves. -/
theorem get?_call_self (a : Attributes) (c : AttributeCall) :
    (a.call c).1.get? c.name = c.left := by
  cases c with
  | set name value => exact a.values.get?_insert_self name value
  | remove name => exact a.values.get?_erase_self name

/-- A call leaves the values of other names. -/
theorem get?_call_of_ne {c : AttributeCall} {name : Bytes} (other : name ≠ c.name) :
    (a.call c).1.get? name = a.get? name := by
  cases c with
  | set => exact OrderedMap.get?_insert_of_ne other
  | remove => exact OrderedMap.get?_erase_of_ne other

theorem through_inode (a : Attributes) (calls : List AttributeCall) :
    (a.through calls).inode = a.inode := by
  induction calls generalizing a with
  | nil => rfl
  | cons c rest ih => exact (ih (a.call c).1).trans (a.call_inode c)

/-- Under a name stands what the last call on it left there. -/
theorem get?_through (inode : UInt64) (calls : List AttributeCall) (name : Bytes) :
    ((ofInode inode).through calls).get? name = AttributeCall.lastLeft calls name := by
  induction calls using List.reverseRecOn with
  | nil => rfl
  | append_singleton calls c ih =>
    have last : (ofInode inode).through (calls ++ [c]) =
        (((ofInode inode).through calls).call c).1 := by
      rw [through, List.foldl_append]
      rfl
    rw [last, AttributeCall.lastLeft, List.filter_append]
    by_cases own : c.name = name
    · subst own
      rw [get?_call_self]
      simp
    · rw [get?_call_of_ne (Ne.symm own), ih, AttributeCall.lastLeft]
      simp [own]

/-! ## Names -/

/-- The names are those under which something stands. -/
theorem mem_names_iff {name : Bytes} : name ∈ a.names ↔ ∃ value, a.get? name = some value := by
  rw [names, OrderedMap.keys, List.mem_map]
  constructor
  · rintro ⟨⟨k, value⟩, listed, rfl⟩
    exact ⟨value, OrderedMap.get?_eq_some_iff.mpr listed⟩
  · rintro ⟨value, found⟩
    exact ⟨(name, value), OrderedMap.get?_eq_some_iff.mp found, rfl⟩

/-- The names ascend strictly. -/
theorem names_ascend (a : Attributes) : a.names.Pairwise (· < ·) :=
  List.pairwise_map.mpr a.values.ascending

/-! ## Octets -/

/-- Attributes of one inode that answer alike are the same. -/
theorem eq_iff_get? : a = b ↔ a.inode = b.inode ∧ ∀ name, a.get? name = b.get? name := by
  constructor
  · rintro rfl
    exact ⟨rfl, fun _ => rfl⟩
  · rintro ⟨inode, alike⟩
    obtain ⟨inodeA, valuesA⟩ := a
    obtain ⟨inodeB, valuesB⟩ := b
    rw [Attributes.mk.injEq]
    exact ⟨inode, OrderedMap.ext_get? alike⟩

end Attributes

/-- Records that can be written are told apart by their octets. -/
theorem Collection.encode_eq_iff {c : Collection} {r r' : c.Record} (fits : c.Fits r)
    (fits' : c.Fits r') : c.encode r = c.encode r' ↔ r = r' := by
  constructor
  · exact (layout_readsBack fits).eq_of_write (layout_readsBack fits')
  · rintro rfl
    rfl

/-- **Attributes have one form.** Whatever calls make the attributes of an inode out of none, their
octets are those of other such attributes exactly if the inode is the same and each name is answered
alike. A name is answered with what the last call on it left there. The names are those that have a
value, each once and in ascending order. A call answers with the value that its name had, and
changes what is answered for no other name. -/
theorem attributes_have_one_form :
    (∀ (inode inode' : UInt64) (calls calls' : List AttributeCall),
      let a := (Attributes.ofInode inode).through calls
      let a' := (Attributes.ofInode inode').through calls'
      a.Fits → a'.Fits →
        (Collection.attributes.encode a = Collection.attributes.encode a' ↔
          inode = inode' ∧ ∀ name, a.get? name = a'.get? name)) ∧
      (∀ (inode : UInt64) (calls : List AttributeCall),
        let a := (Attributes.ofInode inode).through calls
        (∀ name, a.get? name = AttributeCall.lastLeft calls name) ∧
          (∀ name, name ∈ a.names ↔ ∃ value, a.get? name = some value) ∧
          a.names.Pairwise (· < ·)) ∧
      ∀ (a : Attributes) (c : AttributeCall),
        (a.call c).2 = a.get? c.name ∧ (a.call c).1.inode = a.inode ∧
          (a.call c).1.get? = Function.update a.get? c.name c.left := by
  refine ⟨?octets, ?names, ?calls⟩
  case octets =>
    intro inode inode' calls calls' a a' fits fits'
    have own : a.inode = inode := Attributes.through_inode _ calls
    have own' : a'.inode = inode' := Attributes.through_inode _ calls'
    rw [Collection.encode_eq_iff (c := .attributes) fits fits', Attributes.eq_iff_get?, own, own']
  case names =>
    intro inode calls a
    exact ⟨Attributes.get?_through inode calls, fun _ => Attributes.mem_names_iff, a.names_ascend⟩
  case calls =>
    intro a c
    refine ⟨a.call_answer c, a.call_inode c, ?_⟩
    funext name
    by_cases own : name = c.name
    · subst own
      rw [Function.update_self, Attributes.get?_call_self]
    · rw [Function.update_of_ne own, Attributes.get?_call_of_ne own]

/-- Names that are set in another order, one of them again, and one that is taken away leave the
same octets. A name and a value that are cut elsewhere leave others. -/
theorem attributes_have_one_form_reordered :
    let a := (Attributes.ofInode 7).through
      [.set [2] [9], .set [1] [8], .set [3] [], .remove [3]]
    let a' := (Attributes.ofInode 7).through [.set [1] [], .set [2] [9], .set [1] [8]]
    let b := (Attributes.ofInode 7).through [.set [1, 2] [3]]
    let b' := (Attributes.ofInode 7).through [.set [1] [2, 3]]
    a.Fits ∧ a'.Fits ∧ b.Fits ∧ b'.Fits ∧
      Collection.attributes.encode a = Collection.attributes.encode a' ∧
      Collection.attributes.encode b ≠ Collection.attributes.encode b' := by
  intro a a' b b'
  obtain ⟨octets, -, -⟩ := attributes_have_one_form
  have fitsA : a.Fits := ⟨by decide, by decide⟩
  have fitsA' : a'.Fits := ⟨by decide, by decide⟩
  have fitsB : b.Fits := ⟨by decide, by decide⟩
  have fitsB' : b'.Fits := ⟨by decide, by decide⟩
  have same : a = a' := by decide
  refine ⟨fitsA, fitsA', fitsB, fitsB', ?_, ?_⟩
  · apply (octets 7 7 _ _ fitsA fitsA').mpr
    exact ⟨rfl, fun name => congrArg (·.get? name) same⟩
  · intro equal
    have alike := ((octets 7 7 _ _ fitsB fitsB').mp equal).2 [1]
    exact absurd alike (by decide)

end FileCatalog
