import FileCatalog.Proofs.JsonSpelling

/-!
# What a record is in JSON

A record is an object in JSON. `Collection.ShownAs` says which: the names of its members in the
order of their declaration, and for each name the value that the field of the record has. Numbers
stand for themselves, texts are texts, octets are arrays of numbers, lists are arrays and maps are
objects by ascending key. The tables of names and values stand apart from the program that builds
the object; `Collection.shownAs_iff` says that it builds this object and that there is no other.

`Collection.LineOf` and `Inode.LinesOf` put this together with the rules of spelling: the text of a
record on one line, and the text of an inode over lines. A record has one such text, or none if it
has attributes.
-/

namespace FileCatalog

namespace Json

/-! ## Parts of an object -/

/-- The value is this number. -/
def IsNumber (n : Int) (v : Json) : Prop := v = .number n

/-- The value is this text. -/
def IsText (s : String) (v : Json) : Prop := v = .text s

/-- The value is an array with an item for each of these, in their order. -/
def IsArray {α : Type} (shown : α → Json → Prop) (as : List α) (v : Json) : Prop :=
  ∃ items, v = .array items ∧ List.Forall₂ shown as items

/-- The value is an object with a member for each of these, in their order. -/
def IsObject {α : Type} (name value : α → Json → Prop) (as : List α) (v : Json) : Prop :=
  ∃ members, v = .object members ∧ List.Forall₂ (fun a m => name a m.1 ∧ value a m.2) as members

/-- The value is an array of the numbers of these octets. -/
def IsOctets (bs : Bytes) (v : Json) : Prop := IsArray (fun b => IsNumber b.toNat) bs v

/-- The value is an object with members of these names, in this order, and their values are as is
told of each. -/
def HasMembers (told : List (String × (Json → Prop))) (v : Json) : Prop :=
  IsObject (fun member => IsText member.1) (fun member => member.2) told v

section Settled

variable {α β : Type} {R : α → β → Prop} {as : List α}

/-- Where each item settles what is related to it, the list of these is settled. -/
theorem forall₂_iff_of_settled {bs : List β}
    (settled : List.Forall₂ (fun a b => ∀ b', R a b' ↔ b' = b) as bs) (bs' : List β) :
    List.Forall₂ R as bs' ↔ bs' = bs := by
  induction settled generalizing bs' with
  | nil => exact List.forall₂_nil_left_iff
  | @cons a b as bs first _ ih =>
    rw [List.forall₂_cons_left_iff]
    constructor
    · rintro ⟨b', rest, own, others, rfl⟩
      rw [(first b').mp own, (ih rest).mp others]
    · rintro rfl
      exact ⟨b, bs, (first b).mpr rfl, (ih bs).mpr rfl, rfl⟩

/-- A relation that a function settles relates a list to its image alone. -/
theorem forall₂_iff_eq_map {f : α → β} (settled : ∀ a b, R a b ↔ b = f a) (bs : List β) :
    List.Forall₂ R as bs ↔ bs = as.map f := by
  apply forall₂_iff_of_settled
  rw [List.forall₂_map_right_iff, List.forall₂_same]
  exact fun a _ => settled a

end Settled

/-- Where each item has one form, the array has one. -/
theorem isArray_iff {α : Type} {shown : α → Json → Prop} {f : α → Json}
    (settled : ∀ a v, shown a v ↔ v = f a) {as : List α} {v : Json} :
    IsArray shown as v ↔ v = .array (as.map f) := by
  simp only [IsArray, forall₂_iff_eq_map settled, exists_eq_right]

/-- Where each name and value has one form, the object has one. -/
theorem isObject_iff {α : Type} {name value : α → Json → Prop} {f g : α → Json}
    (names : ∀ a v, name a v ↔ v = f a) (values : ∀ a v, value a v ↔ v = g a) {as : List α}
    {v : Json} : IsObject name value as v ↔ v = .object (as.map fun a => (f a, g a)) := by
  have settled : ∀ (a : α) (m : Json × Json),
      name a m.1 ∧ value a m.2 ↔ m = (f a, g a) := fun a m => by
    rw [names, values, Prod.ext_iff]
  simp only [IsObject, forall₂_iff_eq_map settled, exists_eq_right]

@[simp] theorem isNumber_iff {n : Int} {v : Json} : IsNumber n v ↔ v = .number n := Iff.rfl

@[simp] theorem isText_iff {s : String} {v : Json} : IsText s v ↔ v = .text s := Iff.rfl

@[simp] theorem isOctets_iff {bs : Bytes} {v : Json} : IsOctets bs v ↔ v = octets bs :=
  isArray_iff fun _ _ => Iff.rfl

/-- An object has the members of a table if it is made of their names and values. -/
theorem hasMembers_iff {told : List (String × (Json → Prop))} {members : List (String × Json)}
    (settled : List.Forall₂ (fun t m => t.1 = m.1 ∧ ∀ v, t.2 v ↔ v = m.2) told members) {v : Json} :
    HasMembers told v ↔ v = fields members := by
  have pairs : List.Forall₂
      (fun (t : String × (Json → Prop)) (m : Json × Json) =>
        ∀ m', IsText t.1 m'.1 ∧ t.2 m'.2 ↔ m' = m) told
      (members.map fun m => (.text m.1, m.2)) := by
    rw [List.forall₂_map_right_iff]
    refine settled.imp ?_
    rintro t m ⟨name, value⟩ m'
    rw [isText_iff, name, value, Prod.ext_iff]
  simp only [HasMembers, IsObject, forall₂_iff_of_settled pairs, exists_eq_right]
  rfl

end Json

/-! ## The members of records -/

open Json

/-- The value shows the extent. -/
def Extent.ShownAs (e : Extent) : Json → Prop :=
  HasMembers [
    ("file_offset", IsNumber e.fileOffset.toNat),
    ("partition_id", IsNumber e.partition.toNat),
    ("extent_id", IsNumber e.extent.toNat),
    ("extent_offset", IsNumber e.extentOffset.toNat),
    ("size", IsNumber e.size.toNat),
    ("crc", IsNumber e.crc.toNat)]

/-- The value shows the inode, its extents in their order. -/
def Inode.ShownAs (i : Inode) : Json → Prop :=
  HasMembers [
    ("inode", IsNumber i.number.toNat),
    ("mode", IsNumber i.mode.toNat),
    ("uid", IsNumber i.uid.toNat),
    ("gid", IsNumber i.gid.toNat),
    ("size", IsNumber i.size.toNat),
    ("generation", IsNumber i.generation.toNat),
    ("create_time", IsNumber i.createTime.toInt),
    ("access_time", IsNumber i.accessTime.toInt),
    ("modify_time", IsNumber i.modifyTime.toInt),
    ("link_target", IsOctets i.linkTarget),
    ("nlink", IsNumber i.linkCount.toNat),
    ("flag", IsNumber i.flag.toNat),
    ("extents", IsArray Extent.ShownAs i.extents)]

/-- The value shows the directory entry. -/
def Dentry.ShownAs (d : Dentry) : Json → Prop :=
  HasMembers [
    ("parent_id", IsNumber d.parent.toNat),
    ("name", IsText d.name),
    ("inode", IsNumber d.inode.toNat),
    ("mode", IsNumber d.mode.toNat)]

/-- The value shows the attributes; their names are shown as octets, too. -/
def Attributes.ShownAs (a : Attributes) : Json → Prop :=
  HasMembers [
    ("inode", IsNumber a.inode.toNat),
    ("attrs", IsObject (fun e => IsOctets e.1) (fun e => IsOctets e.2) a.values.entries)]

/-- The value shows the part. -/
def Part.ShownAs (p : Part) : Json → Prop :=
  HasMembers [
    ("id", IsNumber p.number.toNat),
    ("upload_time", IsNumber p.uploadTime.toInt),
    ("md5", IsText p.md5),
    ("size", IsNumber p.size.toNat),
    ("inode", IsNumber p.inode.toNat)]

/-- The value shows the upload, its parts in their order. -/
def Upload.ShownAs (u : Upload) : Json → Prop :=
  HasMembers [
    ("key", IsText u.key),
    ("upload_id", IsText u.upload),
    ("init_time", IsNumber u.startTime.toInt),
    ("parts", IsArray Part.ShownAs u.parts),
    ("extend", IsObject (fun e => IsText e.1) (fun e => IsText e.2) u.extend.entries)]

/-- The value shows the record. -/
def Collection.ShownAs : (c : Collection) → c.Record → Json → Prop
  | .inode, r => Inode.ShownAs r
  | .dentry, r => Dentry.ShownAs r
  | .attributes, r => Attributes.ShownAs r
  | .upload, r => Upload.ShownAs r

section Shown

variable (v : Json)

theorem Extent.shownAs_iff (e : Extent) : e.ShownAs v ↔ v = e.toJson := by
  apply hasMembers_iff
  simp [nat]

/-- An inode is shown as its JSON form and nothing else, and so are the other records below. -/
theorem Inode.shownAs_iff (i : Inode) : i.ShownAs v ↔ v = i.toJson := by
  have extents : ∀ v, IsArray Extent.ShownAs i.extents v ↔
      v = .array (i.extents.map Extent.toJson) :=
    fun _ => isArray_iff fun e v => e.shownAs_iff v
  apply hasMembers_iff
  simp [nat, extents]

theorem Dentry.shownAs_iff (d : Dentry) : d.ShownAs v ↔ v = d.toJson := by
  apply hasMembers_iff
  simp [nat]

/-- Attributes are shown as an object that has octets for names. -/
theorem Attributes.shownAs_iff (a : Attributes) : a.ShownAs v ↔ v = a.toJson := by
  have values : ∀ v, IsObject (fun e => IsOctets e.1) (fun e => IsOctets e.2) a.values.entries v ↔
      v = .object (a.values.entries.map fun e => (octets e.1, octets e.2)) :=
    fun _ => isObject_iff (by simp) (by simp)
  apply hasMembers_iff
  simp [nat, values]

theorem Part.shownAs_iff (p : Part) : p.ShownAs v ↔ v = p.toJson := by
  apply hasMembers_iff
  simp [nat]

/-- An upload is shown with its parts in order. -/
theorem Upload.shownAs_iff (u : Upload) : u.ShownAs v ↔ v = u.toJson := by
  have parts : ∀ v, IsArray Part.ShownAs u.parts v ↔ v = .array (u.parts.map Part.toJson) :=
    fun _ => isArray_iff fun p v => p.shownAs_iff v
  have extend : ∀ v, IsObject (fun e => IsText e.1) (fun e => IsText e.2) u.extend.entries v ↔
      v = .object (u.extend.entries.map fun e => (.text e.1, .text e.2)) :=
    fun _ => isObject_iff (by simp) (by simp)
  apply hasMembers_iff
  simp [parts, extend]

end Shown

/-- A record is shown by the object that is built of it, and by no other value. -/
theorem Collection.shownAs_iff {c : Collection} {r : c.Record} {v : Json} :
    c.ShownAs r v ↔ v = c.toJson r := by
  cases c with
  | inode => exact Inode.shownAs_iff v r
  | dentry => exact Dentry.shownAs_iff v r
  | attributes => exact Attributes.shownAs_iff v r
  | upload => exact Upload.shownAs_iff v r

/-! ## The texts of records -/

/-- The text is the record in JSON on one line. -/
structure Collection.LineOf (c : Collection) (r : c.Record) (t : List Char) : Prop where
  spelled : ∃ v, c.ShownAs r v ∧ v.OnOneLine t
  unbroken : '\n' ∉ t

/-- The line of a record is what is written of it, if that is the whole. -/
theorem Collection.lineOf_iff {c : Collection} {r : c.Record} {t : List Char} :
    c.LineOf r t ↔ (c.toJson r).compact = ⟨t, true⟩ := by
  constructor
  · rintro ⟨⟨v, shown, spelled⟩, -⟩
    rw [← shownAs_iff.mp shown]
    exact onOneLine_iff.mp spelled
  · intro written
    refine ⟨⟨_, shownAs_iff.mpr rfl, onOneLine_iff.mpr written⟩, ?_⟩
    have line := compact_isLine (c.toJson r)
    rw [written] at line
    exact line

/-- A record that can be written whole has a line. -/
theorem Collection.lineOf_compact {c : Collection} {r : c.Record} (keys : c.HasTextKeys r) :
    c.LineOf r (c.toJson r).compact.text := by
  rw [lineOf_iff, ← (c.compact_isWhole_iff r).mpr keys]

/-- The text is the inode in JSON over lines. -/
def Inode.LinesOf (i : Inode) (t : List Char) : Prop := ∃ v, i.ShownAs v ∧ v.OverLines t

/-- The lines of an inode are what is written of it, and that is always the whole. -/
theorem Inode.linesOf_iff {i : Inode} {t : List Char} :
    i.LinesOf t ↔ t = i.toJson.spread.text := by
  have whole : i.toJson.spread = ⟨i.toJson.spread.text, true⟩ := by
    rw [← i.spread_isWhole]
  simp only [LinesOf, Inode.shownAs_iff, exists_eq_left, overLines_iff]
  rw [whole, Writing.mk.injEq, eq_comm]
  exact and_iff_left rfl

end FileCatalog
