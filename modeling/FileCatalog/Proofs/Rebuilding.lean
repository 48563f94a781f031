import FileCatalog.Proofs.Canonical

/-!
# Records rebuilt from their octets

The octets of attributes and of uploads list the pairs of a map, in any order and with names that
may repeat. `maps_read_as_rebuilt` says that to read them is to set the pairs one after the other:
the record that is read is the one that the record's own operations make of the pairs from left to
right, and nothing else is read than octets that list pairs.

The octets are told here without layouts (`Attributes.octetsOf`, `Upload.octetsOf`): numbers in
eight octets, the least significant first, and whatever varies in length behind its length. What a
record answers for a name is told without the operation that sets it, by the last pair that has the
name.

A length is a word, so a list can be too long to be written. What `octetsOf` makes of such a list
is not said to be read.
-/

namespace FileCatalog

namespace OrderedMap

variable {κ ν : Type} [ByteOrdered κ]

/-- The map with the pairs put into it, one after the other. -/
def insertAll (m : OrderedMap κ ν) (pairs : List (κ × ν)) : OrderedMap κ ν :=
  pairs.foldl (fun m e => m.insert e.1 e.2) m

/-- A map from a list is the empty map with the pairs put into it. -/
theorem ofList_eq_insertAll (pairs : List (κ × ν)) : ofList pairs = insertAll ∅ pairs := rfl

/-- Of the pairs with one key the last is found, and without any the key keeps what it had. -/
theorem get?_insertAll [BEq κ] [LawfulBEq κ] (m : OrderedMap κ ν) (pairs : List (κ × ν)) (k : κ) :
    (m.insertAll pairs).get? k = (pairs.reverse.lookup k).or (m.get? k) := by
  induction pairs generalizing m with
  | nil => rfl
  | cons e rest ih =>
    have later : (m.insertAll (e :: rest)).get? k =
        (rest.reverse.lookup k).or ((m.insert e.1 e.2).get? k) := ih _
    rw [later, List.reverse_cons, List.lookup_append, Option.or_assoc]
    congr 1
    by_cases own : k = e.1
    · subst own
      rw [get?_insert_self, List.lookup_cons_self, Option.some_or]
    · rw [get?_insert_of_ne own, List.lookup_cons, beq_false_of_ne own, List.lookup_nil]
      rfl

end OrderedMap

/-! ## Octets that list pairs -/

namespace Bytes

/-- A number keeps no more than its low octets. -/
theorem littleEndian_mod_capacity (w n : Nat) :
    littleEndian w (n % capacity w) = littleEndian w n := by
  induction w generalizing n with
  | zero => rfl
  | succ w ih =>
    rw [littleEndian, littleEndian, capacity, Nat.mod_mul_right_mod, Nat.mod_mul_right_div_self, ih]

/-- How many items there are, then the form of each. -/
def counted {α : Type} (form : α → Bytes) (items : List α) : Bytes :=
  littleEndian 8 items.length ++ items.flatMap form

/-- How many octets there are, then the octets. -/
def framed (octets : Bytes) : Bytes := littleEndian 8 octets.length ++ octets

/-- The octets of a text behind their number. -/
def framedText (s : String) : Bytes := framed (Utf8.encode s)

end Bytes

open Bytes

/-- The octets of attributes given as pairs: the inode, then the pairs, counted, in the order given.
-/
def Attributes.octetsOf (inode : UInt64) (pairs : List (Bytes × Bytes)) : Bytes :=
  littleEndian 8 inode.toNat ++ counted (fun e => framed e.1 ++ framed e.2) pairs

/-- The octets of a part. -/
def Part.octets (p : Part) : Bytes :=
  littleEndian 2 p.number.toNat ++ littleEndian 8 p.uploadTime.toUInt64.toNat ++
    framedText p.md5 ++ littleEndian 8 p.size.toNat ++ littleEndian 8 p.inode.toNat

/-- The octets of an upload, but with the pairs listed in place of the entries of its map. -/
def Upload.octetsOf (u : Upload) (pairs : List (String × String)) : Bytes :=
  framedText u.key ++ framedText u.upload ++ littleEndian 8 u.startTime.toUInt64.toNat ++
    counted Part.octets u.parts ++ counted (fun e => framedText e.1 ++ framedText e.2) pairs

namespace Layout

theorem word64_write_length (n : Nat) : word64.write (UInt64.ofNat n) = littleEndian 8 n := by
  show littleEndian 8 (UInt64.ofNat n).toNat = littleEndian 8 n
  rw [UInt64.toNat_ofNat']
  exact littleEndian_mod_capacity 8 n

/-- A list is written as its count and its items. -/
theorem list_write_eq_counted {α : Type} (l : Layout α) : (list l).write = counted l.write := by
  funext items
  exact congrArg (· ++ items.flatMap l.write) (word64_write_length items.length)

theorem word8_write (b : UInt8) : word8.write b = [b] := by
  show [UInt8.ofNat (b.toNat % 256)] = [b]
  rw [Nat.mod_eq_of_lt b.toNat_lt, UInt8.ofNat_toNat]

/-- Byte strings are written as their length and their octets. -/
theorem bytes_write_eq_framed : Layout.bytes.write = framed := by
  funext octets
  have each : octets.flatMap word8.write = octets := by
    simp [funext word8_write]
  rw [Layout.bytes, list_write_eq_counted, counted, each, framed]

/-- Texts are written as the length and the octets of their encoding. -/
theorem text_write_eq_framedText : text.write = framedText := by
  funext s
  exact congrArg (· ++ Utf8.encode s) (word64_write_length _)

end Layout

open Layout

/-- The layout of attributes writes the octets of their pairs. -/
theorem Attributes.listing_write (inode : UInt64) (pairs : List (Bytes × Bytes)) :
    Attributes.listing.write (inode, pairs) = Attributes.octetsOf inode pairs := by
  show littleEndian 8 inode.toNat ++ (list (Layout.bytes.pair Layout.bytes)).write pairs = _
  rw [list_write_eq_counted, Layout.pair, bytes_write_eq_framed]
  rfl

/-- The layout of a part writes its octets. -/
theorem Part.layout_write : Part.layout.write = Part.octets := by
  funext p
  show littleEndian 2 p.number.toNat ++ (littleEndian 8 p.uploadTime.toUInt64.toNat ++
    (text.write p.md5 ++ (littleEndian 8 p.size.toNat ++ littleEndian 8 p.inode.toNat))) = _
  rw [text_write_eq_framedText]
  simp only [Part.octets, List.append_assoc]

/-- The layout of an upload writes the octets of its pairs. -/
theorem Upload.listing_write (u : Upload) (pairs : List (String × String)) :
    Upload.listing.write (u.key, u.upload, u.startTime, u.parts, pairs) = u.octetsOf pairs := by
  show text.write u.key ++ (text.write u.upload ++ (littleEndian 8 u.startTime.toUInt64.toNat ++
    ((list Part.layout).write u.parts ++ (list (text.pair text)).write pairs))) = _
  rw [list_write_eq_counted, list_write_eq_counted, Part.layout_write, Layout.pair,
    text_write_eq_framedText]
  simp only [Upload.octetsOf, List.append_assoc]

/-! ## Records rebuilt -/

namespace Attributes

/-- The record with the pairs set, one after the other. -/
def setAll (a : Attributes) (pairs : List (Bytes × Bytes)) : Attributes :=
  pairs.foldl (fun a e => (a.set e.1 e.2).1) a

/-- Attributes set in turn are pairs inserted in turn into the map. -/
theorem setAll_eq (a : Attributes) (pairs : List (Bytes × Bytes)) :
    a.setAll pairs = { a with values := a.values.insertAll pairs } := by
  induction pairs generalizing a with
  | nil => rfl
  | cons e rest ih => exact ih _

@[simp] theorem setAll_inode (a : Attributes) (pairs : List (Bytes × Bytes)) :
    (a.setAll pairs).inode = a.inode := by
  rw [setAll_eq]

/-- After attributes are set in turn, the last pair of a name tells its value. -/
theorem get?_setAll (a : Attributes) (pairs : List (Bytes × Bytes)) (name : Bytes) :
    (a.setAll pairs).get? name = (pairs.reverse.lookup name).or (a.get? name) := by
  rw [setAll_eq]
  exact OrderedMap.get?_insertAll a.values pairs name

/-- Octets are read as attributes exactly when they list pairs that make them. -/
theorem decode_eq_ok_iff_setAll {bs : Bytes} {a : Attributes} :
    Collection.attributes.decode bs = .ok a ↔
      ∃ pairs, PairsFit (·.length < UInt64.size) (·.length < UInt64.size) pairs ∧
        bs = octetsOf a.inode pairs ∧ a = (ofInode a.inode).setAll pairs := by
  refine Collection.decode_eq_ok_iff.trans (decode_eq_ok_iff.trans ?_)
  constructor
  · rintro ⟨pairs, listed, made⟩
    obtain ⟨whole, -, fits⟩ := listing_exact.of_decode listed
    refine ⟨pairs, fits, whole.trans (listing_write _ _), ?_⟩
    rw [setAll_eq]
    exact congrArg (Attributes.mk a.inode) (made.trans (OrderedMap.ofList_eq_insertAll pairs))
  · rintro ⟨pairs, fits, rfl, made⟩
    have back := fits.readsBack (fun _ => bytes_readsBack) (fun _ => bytes_readsBack)
    refine ⟨pairs, ?_, ?_⟩
    · rw [← listing_write]
      exact ((word64_readsBack _).pair back).decode
    · rw [made, setAll_eq, OrderedMap.ofList_eq_insertAll]
      rfl

/-- Whatever pairs are listed, they are read. -/
theorem decode_octetsOf {inode : UInt64} {pairs : List (Bytes × Bytes)}
    (fits : PairsFit (·.length < UInt64.size) (·.length < UInt64.size) pairs) :
    Collection.attributes.decode (octetsOf inode pairs) = .ok ((ofInode inode).setAll pairs) := by
  have same : ((ofInode inode).setAll pairs).inode = inode := setAll_inode (ofInode inode) pairs
  refine decode_eq_ok_iff_setAll.mpr ⟨pairs, fits, ?_, ?_⟩
  all_goals rw [same]

end Attributes

namespace Upload

/-- The upload before anything was put into its map. -/
def bare (u : Upload) : Upload := { u with extend := ∅ }

/-- The upload with the pairs put into its map, one after the other. -/
def extendAll (u : Upload) (pairs : List (String × String)) : Upload :=
  pairs.foldl (fun u e => { u with extend := u.extend.insert e.1 e.2 }) u

/-- Extensions given in turn are pairs inserted in turn into the map. -/
theorem extendAll_eq (u : Upload) (pairs : List (String × String)) :
    u.extendAll pairs = { u with extend := u.extend.insertAll pairs } := by
  induction pairs generalizing u with
  | nil => rfl
  | cons e rest ih => exact ih _

@[simp] theorem bare_extendAll (u : Upload) (pairs : List (String × String)) :
    (u.extendAll pairs).bare = u.bare := by
  rw [extendAll_eq, bare, bare]

/-- The octets of an upload are read off its fields, not off its map. -/
theorem octetsOf_eq_of_bare {u u' : Upload} (same : u.bare = u'.bare)
    (pairs : List (String × String)) : u.octetsOf pairs = u'.octetsOf pairs := by
  show u.bare.octetsOf pairs = u'.bare.octetsOf pairs
  rw [same]

/-- After extensions are given in turn, the last pair of a name tells its value. -/
theorem get?_extendAll (u : Upload) (pairs : List (String × String)) (name : String) :
    (u.extendAll pairs).extend.get? name =
      (pairs.reverse.lookup name).or (u.extend.get? name) := by
  rw [extendAll_eq]
  exact OrderedMap.get?_insertAll u.extend pairs name

/-- Octets are read as an upload exactly when they list pairs that make its map. -/
theorem decode_eq_ok_iff_extendAll {bs : Bytes} {u : Upload} :
    Collection.upload.decode bs = .ok u ↔
      ∃ pairs, u.bare.Fits ∧ PairsFit Text.Fits Text.Fits pairs ∧
        bs = u.octetsOf pairs ∧ u = u.bare.extendAll pairs := by
  refine Collection.decode_eq_ok_iff.trans (decode_eq_ok_iff.trans ?_)
  constructor
  · rintro ⟨pairs, listed, made⟩
    obtain ⟨whole, key, upload, -, ⟨parts, eachPart⟩, fits⟩ := listing_exact.of_decode listed
    have bare : u.bare.Fits :=
      { key, upload, parts, eachPart
        extend := show 0 < UInt64.size by decide
        eachEntry := fun e listed => absurd listed List.not_mem_nil }
    refine ⟨pairs, bare, fits, whole.trans (listing_write _ _), ?_⟩
    rw [extendAll_eq]
    exact congrArg (Upload.mk u.key u.upload u.startTime u.parts)
      (made.trans (OrderedMap.ofList_eq_insertAll pairs))
  · rintro ⟨pairs, bare, fits, rfl, made⟩
    have key := text_readsBack bare.key
    have upload := text_readsBack bare.upload
    have startTime := signed64_readsBack u.startTime
    have parts := list_readsBack bare.parts fun p hp => Part.readsBack (bare.eachPart p hp)
    have back := fits.readsBack (fun _ => text_readsBack) (fun _ => text_readsBack)
    refine ⟨pairs, ?_, ?_⟩
    · rw [← listing_write]
      exact (key.pair (upload.pair (startTime.pair (parts.pair back)))).decode
    · rw [made, extendAll_eq, OrderedMap.ofList_eq_insertAll]
      rfl

/-- Whatever pairs are listed, they are read. -/
theorem decode_octetsOf {u : Upload} {pairs : List (String × String)} (bare : u.bare.Fits)
    (fits : PairsFit Text.Fits Text.Fits pairs) :
    Collection.upload.decode (u.octetsOf pairs) = .ok (u.bare.extendAll pairs) := by
  have same : (u.bare.extendAll pairs).bare = u.bare := bare_extendAll u.bare pairs
  refine decode_eq_ok_iff_extendAll.mpr ⟨pairs, ?_, fits, (octetsOf_eq_of_bare same pairs).symm, ?_⟩
  all_goals rw [same]
  exact bare

end Upload

/-- **Maps are read as they are rebuilt.** Octets that list pairs of names and values are read as
the record that setting these pairs from left to right makes, whatever their order and however often
a name repeats: of the pairs with one name the last counts. Nothing else is read. So it is with the
map of an upload, whose other fields are read as they were written. -/
theorem maps_read_as_rebuilt :
    (∀ {inode : UInt64} {pairs : List (Bytes × Bytes)},
        PairsFit (·.length < UInt64.size) (·.length < UInt64.size) pairs →
          Collection.attributes.decode (Attributes.octetsOf inode pairs) =
            .ok ((Attributes.ofInode inode).setAll pairs)) ∧
      (∀ {bs : Bytes} {a : Attributes}, Collection.attributes.decode bs = .ok a →
        ∃ pairs, PairsFit (·.length < UInt64.size) (·.length < UInt64.size) pairs ∧
          bs = Attributes.octetsOf a.inode pairs ∧ a = (Attributes.ofInode a.inode).setAll pairs) ∧
      (∀ (inode : UInt64) (pairs : List (Bytes × Bytes)) (name : Bytes),
        ((Attributes.ofInode inode).setAll pairs).inode = inode ∧
          ((Attributes.ofInode inode).setAll pairs).get? name = pairs.reverse.lookup name) ∧
      (∀ {u : Upload} {pairs : List (String × String)}, u.bare.Fits →
        PairsFit Text.Fits Text.Fits pairs →
          Collection.upload.decode (u.octetsOf pairs) = .ok (u.bare.extendAll pairs)) ∧
      (∀ {bs : Bytes} {u : Upload}, Collection.upload.decode bs = .ok u →
        ∃ pairs, u.bare.Fits ∧ PairsFit Text.Fits Text.Fits pairs ∧ bs = u.octetsOf pairs ∧
          u = u.bare.extendAll pairs) ∧
      ∀ (u : Upload) (pairs : List (String × String)),
        u.bare.extendAll pairs = { u with extend := (u.bare.extendAll pairs).extend } ∧
          ∀ name, (u.bare.extendAll pairs).extend.get? name = pairs.reverse.lookup name := by
  refine ⟨Attributes.decode_octetsOf, Attributes.decode_eq_ok_iff_setAll.mp, ?values,
    Upload.decode_octetsOf, Upload.decode_eq_ok_iff_extendAll.mp, ?entries⟩
  case values =>
    intro inode pairs name
    refine ⟨Attributes.setAll_inode _ _, ?_⟩
    rw [Attributes.get?_setAll]
    exact Option.or_none
  case entries =>
    intro u pairs
    refine ⟨by rw [Upload.extendAll_eq]; rfl, fun name => ?_⟩
    rw [Upload.get?_extendAll]
    exact Option.or_none

/-- Names that are listed out of order, one of them twice, are read with the values that are listed
last, in attributes and in an upload with a part. -/
theorem maps_read_as_rebuilt_repeated :
    let pairs : List (Bytes × Bytes) := [([2], [9]), ([1], [8]), ([2], [])]
    let texts : List (String × String) := [("b", "x"), ("a", "y"), ("b", "")]
    let u : Upload := { key := "k", parts := [{ number := 3, md5 := "d", size := 5 }] }
    (∃ a, Collection.attributes.decode (Attributes.octetsOf 7 pairs) = .ok a ∧
      a.get? [1] = some [8] ∧ a.get? [2] = some [] ∧
        ∃ listed, Attributes.octetsOf 7 pairs = Attributes.octetsOf a.inode listed) ∧
      ∃ v, Collection.upload.decode (u.octetsOf texts) = .ok v ∧ v.parts = u.parts ∧
        v.extend.get? "a" = some "y" ∧ v.extend.get? "b" = some "" ∧
          ∃ listed, u.octetsOf texts = v.octetsOf listed := by
  intro pairs texts u
  obtain ⟨attributes, listedPairs, values, upload, listedTexts, entries⟩ := maps_read_as_rebuilt
  have pairsFit : PairsFit (·.length < UInt64.size) (·.length < UInt64.size) pairs := by
    simp [PairsFit, pairs, UInt64.size]
  have textsFit : PairsFit Text.Fits Text.Fits texts := by
    unfold PairsFit
    decide
  have bare : u.bare.Fits := ⟨by decide, by decide, by decide, by decide, by decide, by decide⟩
  refine ⟨⟨_, attributes pairsFit, ?one, ?two, ?pairs⟩,
    ⟨_, upload bare textsFit, ?kept, ?a, ?b, ?texts⟩⟩
  case one => exact (values 7 pairs [1]).2
  case two => exact (values 7 pairs [2]).2
  case pairs =>
    obtain ⟨listed, -, whole, -⟩ := listedPairs (attributes pairsFit)
    exact ⟨listed, whole⟩
  case kept => rw [(entries u texts).1]
  case a => exact (entries u texts).2 "a"
  case b => exact (entries u texts).2 "b"
  case texts =>
    obtain ⟨listed, -, -, whole, -⟩ := listedTexts (upload bare textsFit)
    exact ⟨listed, whole⟩

end FileCatalog
