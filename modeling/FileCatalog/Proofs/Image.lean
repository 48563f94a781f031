import FileCatalog.Proofs.RoundTrip
import FileCatalog.Proofs.Volume

/-!
# Stores on a volume

A volume keeps a table in a directory when the directory is there and the file in it holds the image
of the table (`Volume.Keeps`). A store that is saved comes to be kept (`keeps_of_saveStore`). Such a
directory can be opened, and what is loaded is the table (`Keeps.openStore`). To save a store there
whose table has not changed leaves the volume looking as it did (`Keeps.saveStore`).

Both rest on the image being read back. Lengths in an image are written in eight octets, and so is
the length of a file, so what lies in a file has no longer parts (`Image.read?_write`).
-/

namespace FileCatalog

/-! ## Images -/

namespace Layout

variable {α : Type} {l : Layout α} {as : List α}

/-- A value takes no more octets than the list that it is in. -/
theorem length_write_le_list {a : α} (member : a ∈ as) :
    (l.write a).length ≤ ((list l).write as).length := by
  obtain ⟨before, after, rfl⟩ := List.append_of_mem member
  simp only [list, List.flatMap_append, List.flatMap_cons, List.length_append]
  omega

/-- A list has no more values than octets, if none of them is written as nothing. -/
theorem length_le_list (filled : ∀ a, 0 < (l.write a).length) :
    as.length ≤ ((list l).write as).length := by
  have each : as.length ≤ (as.flatMap l.write).length := by
    induction as with
    | nil => exact Nat.le_refl 0
    | cons a rest ih =>
      have one := filled a
      rw [List.flatMap_cons, List.length_cons, List.length_append]
      omega
  simp only [list, List.length_append]
  omega

/-- A framed byte string is at least as long as the string. -/
theorem length_le_bytes (octets : Bytes) : octets.length ≤ (bytes.write octets).length :=
  length_le_list fun b => (Bytes.length_littleEndian 1 b.toNat).symm ▸ Nat.one_pos

theorem bytes_filled (octets : Bytes) : 0 < (bytes.write octets).length := by
  have front : (word64.write (UInt64.ofNat octets.length)).length = 8 :=
    Bytes.length_littleEndian 8 _
  simp only [bytes, list, List.length_append]
  omega

end Layout

/-- An image in a file is read back, as the table that it was written of. -/
theorem Image.read?_write {t : Table} (fits : (write t).length < UInt64.size) :
    read? (write t) = some t := by
  have entry : ∀ e : Bytes × Bytes, ((Layout.bytes.pair Layout.bytes).write e).length =
      (Layout.bytes.write e.1).length + (Layout.bytes.write e.2).length :=
    fun e => List.length_append
  have whole : ((Layout.list (Layout.bytes.pair Layout.bytes)).write t.entries).length <
      UInt64.size := by
    refine Nat.lt_of_le_of_lt ?_ fits
    rw [write, List.length_append]
    exact Nat.le_add_left _ _
  have many : t.entries.length < UInt64.size := by
    refine Nat.lt_of_le_of_lt (Layout.length_le_list fun e => ?_) whole
    have := Layout.bytes_filled e.1
    rw [entry]
    omega
  have long : ∀ e ∈ t.entries, e.1.length < UInt64.size ∧ e.2.length < UInt64.size := by
    intro e he
    have part := Layout.length_write_le_list (l := Layout.bytes.pair Layout.bytes) he
    have key := Layout.length_le_bytes e.1
    have value := Layout.length_le_bytes e.2
    rw [entry] at part
    omega
  have decoded := (Layout.map_readsBack many fun e he =>
    ⟨Layout.bytes_readsBack (long e he).1, Layout.bytes_readsBack (long e he).2⟩).decode
  have filled : (write t).isEmpty = false := rfl
  rw [read?, filled, write, List.take_left, List.drop_left, layout, decoded]
  rfl

/-! ## Directories that keep a table -/

namespace Volume

/-- The directory is there, and its file holds the image of the table. The length of a file is a
word. -/
structure Keeps (v : Volume) (directory : String) (t : Table) : Prop where
  present : v.HasDirectory directory
  image : v.read (Path.join directory Files.imageName) = .file (Image.write t)
  fits : (Image.write t).length < UInt64.size

namespace Keeps

variable {v v' : Volume} {directory : String} {t : Table}

/-- Volumes that look alike keep the same tables. -/
theorem of_alike (alike : v.Alike v') (keeps : v.Keeps directory t) : v'.Keeps directory t where
  present := alike.hasDirectory keeps.present
  image := alike.read _ ▸ keeps.image
  fits := keeps.fits

/-- The table is loaded, and nothing is made. -/
theorem openStore (keeps : v.Keeps directory t) (writeBuffer : UInt64) :
    files.openStore directory writeBuffer v = (Store.load directory t writeBuffer, v) := by
  have made : files.makeDirectory directory v = (true, v) := by
    show (v.makeDirectory directory).swap = _
    rw [makeDirectory_of_present keeps.present]
    rfl
  have read : files.read (Path.join directory Files.imageName) v =
      (.file (Image.write t), v) := by
    show (v.read _, v) = _
    rw [keeps.image]
  simp only [Files.openStore, bind, StateT.bind, made, Bool.not_true, Bool.false_eq_true, if_false,
    read, Image.read?_write keeps.fits]
  rfl

/-- A store that leaves the table as it is does not show when it is saved. -/
theorem saveStore (keeps : v.Keeps directory t) {store : Store} (home : store.directory = directory)
    (left : store.release.durable = t) : v.Alike (files.saveStore store v).2 := by
  have same : v.Alike (v.write (Path.join directory Files.imageName) (Image.write t)).1 :=
    write_same keeps.image
  subst home left
  exact same

end Keeps

/-- A directory keeps what a store left that was saved in it. -/
theorem keeps_of_saveStore {v : Volume} {store : Store} (present : v.HasDirectory store.directory)
    (saved : ((files.saveStore store).run v).1 = true)
    (fits : (Image.write store.release.durable).length < UInt64.size) :
    ((files.saveStore store).run v).2.Keeps store.directory store.release.durable := by
  let file := Path.join store.directory Files.imageName
  have wrote : v.write file (Image.write store.release.durable) =
      (((files.saveStore store).run v).2, true) := Prod.ext rfl saved
  exact ⟨present.of_write wrote, read_of_write wrote, fits⟩

end Volume

end FileCatalog
