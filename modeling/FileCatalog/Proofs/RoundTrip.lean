import FileCatalog.OrderedMap.Lemmas
import FileCatalog.Record.Layout

/-!
# Reading back what was written

`Layout.ReadsBack` says of a value that it is read off the front of whatever its octets begin. It is
proved for each way of putting layouts together, and so for every record: `Collection.readsBack`.

Lengths are written in eight octets. A machine has no longer texts, byte strings and lists than
that, but lists have: `Collection.Fits` says of a record that all its lengths are words.
-/

namespace FileCatalog

namespace Layout

variable {α β : Type}

/-- The value is read off the front of whatever its octets begin. -/
def ReadsBack (l : Layout α) (a : α) : Prop :=
  ∀ rest, l.read (l.write a ++ rest) = .ok (a, rest)

/-- What reads back before any rest is decoded when nothing is left over. -/
theorem ReadsBack.decode {l : Layout α} {a : α} (h : l.ReadsBack a) :
    l.decode (l.write a) = .ok a := by
  have whole := h []
  rw [List.append_nil] at whole
  simp only [Layout.decode, whole]
  rfl

/-! ## Words -/

/-- Octets of the length that is asked for are taken, and the rest is left. -/
theorem takeOctets_append {w : Nat} {octets : Bytes} (length : octets.length = w) (rest : Bytes) :
    takeOctets w (octets ++ rest) = .ok (octets, rest) := by
  subst length
  simp [takeOctets]

/-- A number that fits its octets is read back from them. -/
theorem word_readsBack {w n : Nat} (fits : n < Bytes.capacity w) : (word w).ReadsBack n := by
  intro rest
  have taken := takeOctets_append (Bytes.length_littleEndian w n) rest
  have number := Bytes.ofLittleEndian_littleEndian w n
  rw [Nat.mod_eq_of_lt fits] at number
  simp only [word, taken]
  exact congrArg (fun n => Except.ok (n, rest)) number

/-- A value that is written by its parts reads back if the parts do and make the value again. -/
theorem ReadsBack.via {l : Layout α} {make : α → β} {parts : β → α} {b : β}
    (h : l.ReadsBack (parts b)) (made : make (parts b) = b) : (l.via make parts).ReadsBack b := by
  intro rest
  simp only [Layout.via, h rest]
  exact congrArg (fun b => Except.ok (b, rest)) made

theorem word8_readsBack (n : UInt8) : word8.ReadsBack n :=
  (word_readsBack n.toNat_lt).via UInt8.ofNat_toNat

theorem word16_readsBack (n : UInt16) : word16.ReadsBack n :=
  (word_readsBack n.toNat_lt).via UInt16.ofNat_toNat

theorem word32_readsBack (n : UInt32) : word32.ReadsBack n :=
  (word_readsBack n.toNat_lt).via UInt32.ofNat_toNat

theorem word64_readsBack (n : UInt64) : word64.ReadsBack n :=
  (word_readsBack n.toNat_lt).via UInt64.ofNat_toNat

theorem signed64_readsBack (n : Int64) : signed64.ReadsBack n :=
  (word64_readsBack n.toUInt64).via (by simp)

/-! ## Layouts put together -/

/-- The second part of a pair is what the first one finds behind itself. -/
theorem ReadsBack.pair {l : Layout α} {m : Layout β} {a : α} {b : β} (ha : l.ReadsBack a)
    (hb : m.ReadsBack b) : (l.pair m).ReadsBack (a, b) := by
  intro rest
  -- What the first reader leaves is what the second one begins with.
  have first := ha (m.write b ++ rest)
  have second := hb rest
  rw [← List.append_assoc] at first
  simp only [Layout.pair, first]
  simp only [bind, Except.bind, second]
  rfl

/-- As many values as were written are read, whatever stands behind them. -/
theorem readMany_flatMap {l : Layout α} {as : List α} (each : ∀ a ∈ as, l.ReadsBack a)
    (rest : Bytes) : readMany l.read as.length (as.flatMap l.write ++ rest) = .ok (as, rest) := by
  induction as with
  | nil => rfl
  | cons a as ih =>
    have first := each a List.mem_cons_self (as.flatMap l.write ++ rest)
    have others := ih fun a ha => each a (List.mem_cons_of_mem _ ha)
    rw [List.flatMap_cons, List.append_assoc, List.length_cons, readMany, first]
    simp only [bind, Except.bind, others]
    rfl

/-- A list reads back if its length is a word: the length comes first and says how many to read. -/
theorem list_readsBack {l : Layout α} {as : List α} (fits : as.length < UInt64.size)
    (each : ∀ a ∈ as, l.ReadsBack a) : (list l).ReadsBack as := by
  intro rest
  have number := word64_readsBack (UInt64.ofNat as.length) (as.flatMap l.write ++ rest)
  have items := readMany_flatMap each rest
  rw [← List.append_assoc] at number
  simp only [list, number]
  simp only [bind, Except.bind, UInt64.toNat_ofNat_of_lt' fits, items]

/-- Byte strings are lists of octets. -/
theorem bytes_readsBack {octets : Bytes} (fits : octets.length < UInt64.size) :
    bytes.ReadsBack octets :=
  list_readsBack fits fun b _ => word8_readsBack b

/-- A text is its octets in UTF-8, which decode to it again. -/
theorem text_readsBack {s : String} (fits : (Utf8.encode s).length < UInt64.size) :
    text.ReadsBack s := by
  intro rest
  have number := word64_readsBack (UInt64.ofNat (Utf8.encode s).length) (Utf8.encode s ++ rest)
  rw [← List.append_assoc] at number
  simp only [text, number]
  simp only [bind, Except.bind, UInt64.toNat_ofNat_of_lt' fits, List.take_left, List.drop_left,
    if_true, Utf8.decode_encode]
  rfl

/-- A map is the list of its pairs, which makes the map again since its keys ascend. -/
theorem map_readsBack {κ ν : Type} [ByteOrdered κ] {l : Layout κ} {m : Layout ν}
    {map : OrderedMap κ ν} (fits : map.entries.length < UInt64.size)
    (each : ∀ e ∈ map.entries, l.ReadsBack e.1 ∧ m.ReadsBack e.2) :
    (Layout.map l m).ReadsBack map :=
  (list_readsBack fits fun e he => (each e he).1.pair (each e he).2).via map.ofList_entries

end Layout

open Layout

/-! ## Records -/

/-- The length of a text in octets is a word. -/
def Text.Fits (s : String) : Prop := (Utf8.encode s).length < UInt64.size

/-- Whether a text fits is found by counting its octets. -/
instance (s : String) : Decidable (Text.Fits s) := by
  unfold Text.Fits
  infer_instance

theorem Extent.readsBack (e : Extent) : Extent.layout.ReadsBack e := by
  refine ReadsBack.via ?_ rfl
  exact (word64_readsBack _).pair <| (word64_readsBack _).pair <| (word64_readsBack _).pair <|
    (word64_readsBack _).pair <| (word32_readsBack _).pair (word32_readsBack _)

/-- Of a part only the checksum can be too long. -/
theorem Part.readsBack {p : Part} (fits : Text.Fits p.md5) : Part.layout.ReadsBack p := by
  refine ReadsBack.via ?_ rfl
  exact (word16_readsBack _).pair <| (signed64_readsBack _).pair <| (text_readsBack fits).pair <|
    (word64_readsBack _).pair (word64_readsBack _)

/-- The lengths in an inode are words. -/
structure Inode.Fits (i : Inode) : Prop where
  linkTarget : i.linkTarget.length < UInt64.size
  extents : i.extents.length < UInt64.size

/-- An inode whose lengths are words reads back, its extents one by one. -/
theorem Inode.readsBack {i : Inode} (fits : i.Fits) : Inode.layout.ReadsBack i := by
  refine ReadsBack.via ?_ rfl
  have linkTarget := bytes_readsBack fits.linkTarget
  have extents := list_readsBack fits.extents fun e _ => e.readsBack
  exact (word64_readsBack _).pair <| (word32_readsBack _).pair <| (word32_readsBack _).pair <|
    (word32_readsBack _).pair <| (word64_readsBack _).pair <| (word64_readsBack _).pair <|
    (signed64_readsBack _).pair <| (signed64_readsBack _).pair <| (signed64_readsBack _).pair <|
    linkTarget.pair <| (word32_readsBack _).pair <| (word32_readsBack _).pair extents

/-- Of a directory entry only the name can be too long. -/
theorem Dentry.readsBack {d : Dentry} (fits : Text.Fits d.name) : Dentry.layout.ReadsBack d := by
  refine ReadsBack.via ?_ rfl
  exact (word64_readsBack _).pair <| (text_readsBack fits).pair <| (word64_readsBack _).pair
    (word32_readsBack _)

/-- The lengths in a record of attributes are words: the number of attributes, and those of names
and values. -/
structure Attributes.Fits (a : Attributes) : Prop where
  values : a.values.entries.length < UInt64.size
  each : ∀ e ∈ a.values.entries, e.1.length < UInt64.size ∧ e.2.length < UInt64.size

/-- Attributes whose lengths are words read back, as the map that they are. -/
theorem Attributes.readsBack {a : Attributes} (fits : a.Fits) :
    Attributes.layout.ReadsBack a := by
  refine ReadsBack.via ?_ rfl
  have values := map_readsBack fits.values fun e he =>
    ⟨bytes_readsBack (fits.each e he).1, bytes_readsBack (fits.each e he).2⟩
  exact (word64_readsBack _).pair values

/-- The lengths in a record of an upload are words, those in its parts and in its map included. -/
structure Upload.Fits (u : Upload) : Prop where
  key : Text.Fits u.key
  upload : Text.Fits u.upload
  parts : u.parts.length < UInt64.size
  eachPart : ∀ p ∈ u.parts, Text.Fits p.md5
  extend : u.extend.entries.length < UInt64.size
  eachEntry : ∀ e ∈ u.extend.entries, Text.Fits e.1 ∧ Text.Fits e.2

/-- An upload whose lengths are words reads back, with its parts in their order. -/
theorem Upload.readsBack {u : Upload} (fits : u.Fits) : Upload.layout.ReadsBack u := by
  refine ReadsBack.via ?_ rfl
  have parts := list_readsBack fits.parts fun p hp => Part.readsBack (fits.eachPart p hp)
  have extend := map_readsBack fits.extend fun e he =>
    ⟨text_readsBack (fits.eachEntry e he).1, text_readsBack (fits.eachEntry e he).2⟩
  exact (text_readsBack fits.key).pair <| (text_readsBack fits.upload).pair <|
    (signed64_readsBack _).pair <| parts.pair extend

namespace Collection

/-- All lengths in a record are words. -/
def Fits : (c : Collection) → c.Record → Prop
  | inode, i => i.Fits
  | dentry, d => Text.Fits d.name
  | attributes, a => a.Fits
  | upload, u => u.Fits

/-- A record of any collection reads back if all lengths in it are words. -/
theorem layout_readsBack {c : Collection} {r : c.Record} (fits : c.Fits r) :
    c.layout.ReadsBack r := by
  cases c with
  | inode => exact Inode.readsBack fits
  | dentry => exact Dentry.readsBack fits
  | attributes => exact Attributes.readsBack fits
  | upload => exact Upload.readsBack fits

/-- A record is read back from its octets. -/
theorem decode_encode {c : Collection} {r : c.Record} (fits : c.Fits r) :
    c.decode (c.encode r) = .ok r := by
  rw [decode, encode, (layout_readsBack fits).decode]

/-- No record is written as nothing, since nothing is read from no octets. -/
theorem encode_ne_nil {c : Collection} {r : c.Record} (fits : c.Fits r) : c.encode r ≠ [] := by
  intro empty
  have read := decode_encode fits
  have refused : c.decode [] = .error (.decode c .endOfInput) := by cases c <;> rfl
  rw [empty, refused] at read
  cases read

end Collection

end FileCatalog
