import FileCatalog.Snapshot

/-!
# Laws of keys

The keys of records tell everything apart that has to be told apart in one table: the collections
(`Key.collection_of_eq`), the identities in a collection (`Key.of_injective`), and the log position
from all records (`Key.of_ne_applyIndex`). Between the bounds of a collection lie its own keys and
no others (`Key.of_between`, `Key.applyIndex_not_between`).

An object key that is longer than its length field can say has no key of its own, so injectivity is
stated for identities whose object key fits (`Key.IsProper`). What is written is checked
(`Key.check_iff`), so every record in a table has a proper identity.
-/

namespace FileCatalog

namespace Bytes

/-- Numbers that fit in `w` octets are told apart by them. -/
theorem bigEndian_injective {w m n : Nat} (hm : m < capacity w) (hn : n < capacity w)
    (h : bigEndian w m = bigEndian w n) : m = n := by
  have read := congrArg ofBigEndian h
  rwa [ofBigEndian_bigEndian, ofBigEndian_bigEndian, Nat.mod_eq_of_lt hm, Nat.mod_eq_of_lt hn]
    at read

/-- Eight octets tell words apart. -/
theorem bigEndian_word_injective {a b : UInt64}
    (h : bigEndian 8 a.toNat = bigEndian 8 b.toNat) : a = b := by
  have ha : a.toNat < capacity 8 := a.toNat_lt
  have hb : b.toNat < capacity 8 := b.toNat_lt
  exact UInt64.toNat_inj.mp (bigEndian_injective ha hb h)

end Bytes

namespace Utf8

/-- An octet zero in the form of a character is the whole form of the character zero. -/
private theorem zero_mem_encodeChar (c : Char) :
    0 ∈ String.utf8EncodeChar c ↔ c = Char.ofNat 0 := by
  have value : c = Char.ofNat 0 ↔ c.val.toNat = 0 := by
    constructor
    · rintro rfl
      rfl
    · intro h
      exact Char.ext (UInt32.toNat_inj.mp h)
  rw [value]
  have zero : ∀ n : Nat, (0 : UInt8) = UInt8.ofNat n ↔ n % 256 = 0 := by
    intro n
    rw [← UInt8.toNat_inj, UInt8.toNat_ofNat', eq_comm]
    rfl
  unfold String.utf8EncodeChar
  simp only
  split
  · simp only [List.mem_singleton, zero]
    omega
  · split
    · simp only [List.mem_cons, List.not_mem_nil, or_false, zero]
      omega
    · split
      · simp only [List.mem_cons, List.not_mem_nil, or_false, zero]
        omega
      · simp only [List.mem_cons, List.not_mem_nil, or_false, zero]
        omega

/-- A text holds the octet zero exactly when it holds the character zero. -/
theorem zero_mem_encode (s : String) : 0 ∈ encode s ↔ Char.ofNat 0 ∈ s.toList := by
  have octets : encode s = s.toList.flatMap String.utf8EncodeChar := by
    rw [encode, ← String.utf8Encode_toList, List.utf8Encode, List.toList_data_toByteArray]
  rw [octets, List.mem_flatMap]
  constructor
  · rintro ⟨c, hc, zero⟩
    rwa [← (zero_mem_encodeChar c).mp zero]
  · intro hc
    exact ⟨_, hc, (zero_mem_encodeChar _).mpr rfl⟩

end Utf8

namespace Collection

/-- Each collection has a discriminator of its own. -/
theorem byte_injective {c c' : Collection} (h : c.byte = c'.byte) : c = c' := by
  cases c <;> cases c' <;> first | rfl | exact absurd h (by decide)

theorem byte_lt (c : Collection) : c.byte < 4 := by
  cases c <;> decide

end Collection

namespace Key

/-- The identity has a key of its own. -/
def IsProper : (c : Collection) → c.Identity → Prop
  | .upload, id => (Utf8.encode id.key).length ≤ longestObjectKey
  | _, _ => True

/-- A record that passes the check of its collection is filed under a proper identity. -/
theorem isProper_of_check {c : Collection} {r : c.Record} (checked : check c r = .ok ()) :
    IsProper c (c.identity r) := by
  cases c with
  | upload =>
    simp only [check, checkObjectKey] at checked
    split at checked
    · assumption
    · cases checked
  | _ => trivial

/-- Equal keys are keys of one collection. -/
theorem collection_of_eq {c c' : Collection} {a : c.Identity} {b : c'.Identity}
    (h : of c a = of c' b) : c = c' :=
  Collection.byte_injective (List.cons.inj h).1

/-- Within a collection, equal keys are keys of equal identities. -/
theorem of_injective {c : Collection} {a b : c.Identity} (ha : IsProper c a) (hb : IsProper c b)
    (h : of c a = of c b) : a = b := by
  have octets : ofIdentity c a = ofIdentity c b := (List.cons.inj h).2
  cases c with
  | inode => exact Bytes.bigEndian_word_injective octets
  | attributes => exact Bytes.bigEndian_word_injective octets
  | dentry =>
    obtain ⟨parent, name⟩ := List.append_inj octets (by simp)
    have sameParent := Bytes.bigEndian_word_injective parent
    have sameName := Utf8.encode_injective name
    cases a
    cases b
    cases sameParent
    cases sameName
    rfl
  | upload =>
    simp only [ofIdentity, IsProper, List.append_assoc] at octets ha hb
    -- The length field is exact for proper identities, so it tells where the object key ends.
    rw [Nat.min_eq_left ha, Nat.min_eq_left hb] at octets
    obtain ⟨length, rest⟩ := List.append_inj octets (by simp)
    have fits : ∀ n, n ≤ longestObjectKey → n < Bytes.capacity 4 := fun n hn => Nat.lt_succ_of_le hn
    have sameLength := Bytes.bigEndian_injective (fits _ ha) (fits _ hb) length
    obtain ⟨key, upload⟩ := List.append_inj rest sameLength
    have sameKey := Utf8.encode_injective key
    have sameUpload := Utf8.encode_injective upload
    cases a
    cases b
    cases sameKey
    cases sameUpload
    rfl

/-- No record stands under the key of the log position. -/
theorem of_ne_applyIndex (c : Collection) (id : c.Identity) : of c id ≠ applyIndex := by
  intro h
  have first : c.byte = 0xFF := (List.cons.inj h).1
  have small := c.byte_lt
  rw [first] at small
  exact absurd small (by decide)

/-- What begins with an octet and goes on lies between the bounds of a collection exactly when the
octet is that of the collection. -/
theorem cons_between (c : Collection) (b : UInt8) {rest : Bytes} (goesOn : rest ≠ []) :
    c.least ≤ b :: rest ∧ b :: rest ≤ c.boundary ↔ b = c.byte := by
  have notLast : ¬ rest ≤ [] := fun h => goesOn (List.le_nil.mp h)
  have first : c.least ≤ b :: rest ↔ c.byte ≤ b := by
    rw [Collection.least, List.cons_le_cons_iff, UInt8.le_iff_lt_or_eq]
    simp
  have last : b :: rest ≤ c.boundary ↔ b < c.byte + 1 := by
    rw [Collection.boundary, List.cons_le_cons_iff]
    simp [notLast]
  -- The byte of a collection is far from the largest, so the next one is above it.
  have small : c.byte.toNat < 4 := c.byte_lt
  rw [first, last, ← UInt8.toNat_inj, UInt8.le_iff_toNat_le, UInt8.lt_iff_toNat_lt,
    UInt8.toNat_add]
  have one : (1 : UInt8).toNat = 1 := rfl
  omega

theorem ofIdentity_ne_nil (c : Collection) (id : c.Identity) : ofIdentity c id ≠ [] := by
  have longer : 0 < (ofIdentity c id).length := by
    cases c with
    | inode | attributes =>
      rw [ofIdentity, Bytes.length_bigEndian]
      decide
    | dentry | upload =>
      rw [ofIdentity]
      simp only [List.length_append, Bytes.length_bigEndian]
      omega
  exact List.ne_nil_of_length_pos longer

/-- Between the bounds of a collection lie its own keys and no others. -/
theorem of_between (c c' : Collection) (id : c'.Identity) :
    c.least ≤ of c' id ∧ of c' id ≤ c.boundary ↔ c' = c := by
  rw [of, cons_between c c'.byte (ofIdentity_ne_nil c' id)]
  exact ⟨Collection.byte_injective, congrArg Collection.byte⟩

/-- The key of the log position lies in the bounds of no collection. -/
theorem applyIndex_not_between (c : Collection) :
    ¬ (c.least ≤ applyIndex ∧ applyIndex ≤ c.boundary) := by
  have goesOn : Utf8.encode "apply_index" ≠ [] := by decide
  rw [applyIndex, cons_between c 0xFF goesOn]
  intro h
  have small := c.byte_lt
  rw [← h] at small
  exact absurd small (by decide)

end Key

end FileCatalog
