import FileCatalog.Proofs.Keys
import FileCatalog.OrderedMap.Lemmas
import Mathlib.Data.Sigma.Lex

/-!
# The order of keys

A table lists its entries by the octets of their keys. `keys_ordered_as_identities` says what order
that is: the collections one after the other, and in each the identities in an order of their own,
`Collection.before`. Numbers come by value; directory entries by parent, then by the octets of the
name; uploads by the length of the object key, then by its octets, then by those of the upload.

Two facts about octets carry it. Big-endian forms of one width compare as their numbers
(`Bytes.bigEndian_lt_iff`), and byte strings that begin with parts of one length compare by these
parts first (`Bytes.append_lt_append_iff`). The second is why an object key is preceded by its
length: without it, where one key ends and the upload begins would not be told.
-/

namespace FileCatalog

/-! ## Comparing octets -/

namespace Bytes

/-- Byte strings that begin with parts of one length compare by these parts first. -/
theorem append_lt_append_iff {a b : Bytes} (x y : Bytes) (length : a.length = b.length) :
    a ++ x < b ++ y ↔ a < b ∨ a = b ∧ x < y := by
  induction a generalizing b with
  | nil =>
    obtain rfl := List.eq_nil_of_length_eq_zero length.symm
    simp
  | cons c a ih =>
    cases b with
    | nil => cases length
    | cons d b =>
      have rest := ih (Nat.succ.inj length)
      rw [List.cons_append, List.cons_append, List.cons_lt_cons_iff, List.cons_lt_cons_iff, rest,
        List.cons.injEq]
      constructor
      · rintro (first | ⟨rfl, before | ⟨rfl, after⟩⟩)
        · exact Or.inl (Or.inl first)
        · exact Or.inl (Or.inr ⟨rfl, before⟩)
        · exact Or.inr ⟨⟨rfl, rfl⟩, after⟩
      · rintro ((first | ⟨rfl, before⟩) | ⟨⟨rfl, rfl⟩, after⟩)
        · exact Or.inl first
        · exact Or.inr ⟨rfl, Or.inl before⟩
        · exact Or.inr ⟨rfl, Or.inr ⟨rfl, after⟩⟩

/-- The last of the octets is the lowest. -/
theorem bigEndian_succ (w n : Nat) :
    bigEndian (w + 1) n = bigEndian w (n / 256) ++ [UInt8.ofNat (n % 256)] := by
  rw [bigEndian, littleEndian, List.reverse_cons, bigEndian]

/-- Forms of one width compare as the numbers. -/
theorem bigEndian_lt_iff {w m n : Nat} (hm : m < capacity w) (hn : n < capacity w) :
    bigEndian w m < bigEndian w n ↔ m < n := by
  induction w generalizing m n with
  | zero =>
    simp only [capacity] at hm hn
    simp [bigEndian, littleEndian]
    omega
  | succ w ih =>
    -- All octets but the last are the form of the quotient; the last one is the remainder.
    have highM : m / 256 < capacity w := by rw [capacity] at hm; omega
    have highN : n / 256 < capacity w := by rw [capacity] at hn; omega
    have high : bigEndian w (m / 256) = bigEndian w (n / 256) ↔ m / 256 = n / 256 :=
      ⟨bigEndian_injective highM highN, congrArg (bigEndian w)⟩
    have low : [UInt8.ofNat (m % 256)] < [UInt8.ofNat (n % 256)] ↔ m % 256 < n % 256 := by
      rw [List.cons_lt_cons_iff, UInt8.lt_iff_toNat_lt, UInt8.toNat_ofNat', UInt8.toNat_ofNat']
      simp
    rw [bigEndian_succ, bigEndian_succ, append_lt_append_iff _ _ (by simp), ih highM highN, high,
      low]
    omega

/-- Eight octets order words as numbers. -/
theorem bigEndian_word_lt_iff {a b : UInt64} :
    bigEndian 8 a.toNat < bigEndian 8 b.toNat ↔ a < b := by
  have ha : a.toNat < capacity 8 := a.toNat_lt
  have hb : b.toNat < capacity 8 := b.toNat_lt
  rw [bigEndian_lt_iff ha hb, UInt64.lt_iff_toNat_lt]

end Bytes

/-! ## The order of identities -/

/-- The order of uploads: by the length of the object key, then by its octets, then by those of the
upload. -/
def UploadId.before (a b : UploadId) : Prop :=
  let object (id : UploadId) : Bytes := Utf8.encode id.key
  (object a).length < (object b).length ∨
    (object a).length = (object b).length ∧
      (object a < object b ∨
        object a = object b ∧ Utf8.encode a.upload < Utf8.encode b.upload)

instance (a b : UploadId) : Decidable (a.before b) := by unfold UploadId.before; infer_instance

namespace Collection

/-- The order of the identities in a collection. -/
def before : (c : Collection) → c.Identity → c.Identity → Prop
  | inode, a, b => a < b
  | dentry, a, b => DentryId.before a b
  | attributes, a, b => a < b
  | upload, a, b => UploadId.before a b

instance (c : Collection) (a b : c.Identity) : Decidable (c.before a b) := by
  cases c <;> unfold before <;> infer_instance

/-- The order of the collections, that of their list. -/
def precedes (c c' : Collection) : Prop := all.idxOf c < all.idxOf c'

/-- Discriminators are ordered as their collections. -/
theorem byte_lt_byte_iff {c c' : Collection} : c.byte < c'.byte ↔ c.precedes c' := by
  unfold precedes
  cases c <;> cases c' <;> decide

/-- Of two collections one comes first, unless they are the same. -/
theorem precedes_cases (c c' : Collection) : c.precedes c' ∨ c = c' ∨ c'.precedes c := by
  unfold precedes
  cases c <;> cases c' <;> decide

/-- A collection ends before the next one begins, or where it begins. -/
theorem boundary_le_least {c c' : Collection} (h : c.precedes c') : c.boundary ≤ c'.least := by
  revert h
  unfold precedes
  cases c <;> cases c' <;> decide

end Collection

namespace Key

/-! ## Keys of one collection -/

/-- In a collection keys come as the identities. -/
theorem of_lt_of_iff {c : Collection} {a b : c.Identity} (ha : IsProper c a) (hb : IsProper c b) :
    of c a < of c b ↔ c.before a b := by
  have octets : of c a < of c b ↔ ofIdentity c a < ofIdentity c b := by
    rw [of, of, List.cons_lt_cons_iff]
    simp
  rw [octets]
  cases c with
  | inode => exact Bytes.bigEndian_word_lt_iff
  | attributes => exact Bytes.bigEndian_word_lt_iff
  | dentry =>
    have parent : Bytes.bigEndian 8 a.parent.toNat = Bytes.bigEndian 8 b.parent.toNat ↔
        a.parent = b.parent := ⟨Bytes.bigEndian_word_injective, fun h => by rw [h]⟩
    simp only [ofIdentity]
    rw [Bytes.append_lt_append_iff _ _ (by simp), Bytes.bigEndian_word_lt_iff, parent]
    rfl
  | upload =>
    simp only [ofIdentity, IsProper, List.append_assoc] at ha hb ⊢
    have fits : ∀ n, n ≤ longestObjectKey → n < Bytes.capacity 4 := fun n hn => Nat.lt_succ_of_le hn
    have length : Bytes.bigEndian 4 (Utf8.encode a.key).length =
        Bytes.bigEndian 4 (Utf8.encode b.key).length ↔
          (Utf8.encode a.key).length = (Utf8.encode b.key).length :=
      ⟨Bytes.bigEndian_injective (fits _ ha) (fits _ hb), congrArg (Bytes.bigEndian 4)⟩
    rw [Nat.min_eq_left ha, Nat.min_eq_left hb, Bytes.append_lt_append_iff _ _ (by simp),
      Bytes.bigEndian_lt_iff (fits _ ha) (fits _ hb), length]
    -- Only under equal lengths do the object keys end at one place.
    refine or_congr_right (and_congr_right fun same => ?_)
    exact Bytes.append_lt_append_iff _ _ same

/-! ## The place of a collection -/

section Place

variable (c : Collection) (id : c.Identity)

theorem least_lt_of : c.least < of c id := by
  obtain ⟨octet, rest, octets⟩ := List.exists_cons_of_ne_nil (ofIdentity_ne_nil c id)
  rw [Collection.least, of, octets, List.cons_lt_cons_iff]
  exact Or.inr ⟨rfl, List.nil_lt_cons octet rest⟩

/-- The key of a record is below the boundary of its collection, which is the discriminator after
it. -/
theorem of_lt_boundary : of c id < c.boundary := by
  rw [Collection.boundary, of, List.cons_lt_cons_iff]
  refine Or.inl ?_
  cases c <;> decide

/-- The key of the log position is above all records. -/
theorem of_lt_applyIndex : of c id < applyIndex := by
  rw [applyIndex, of, List.cons_lt_cons_iff]
  refine Or.inl ?_
  cases c <;> decide

end Place

/-! ## Keys of all collections -/

/-- The keys of a collection come before those of the ones behind it. -/
theorem of_lt_of_precedes {c c' : Collection} (h : c.precedes c') (a : c.Identity)
    (b : c'.Identity) : of c a < of c' b := by
  rw [of, of, List.cons_lt_cons_iff]
  exact Or.inl (Collection.byte_lt_byte_iff.mpr h)

/-- The order of all identities: by collection, then as the collection has them. -/
abbrev before : (c : Collection) × c.Identity → (c : Collection) × c.Identity → Prop :=
  Sigma.Lex Collection.precedes Collection.before

/-- **Keys are ordered as identities**, within a collection and across collections. -/
theorem of_lt_of_iff_before {c c' : Collection} {a : c.Identity} {b : c'.Identity}
    (ha : IsProper c a) (hb : IsProper c' b) : of c a < of c' b ↔ before ⟨c, a⟩ ⟨c', b⟩ := by
  rcases Collection.precedes_cases c c' with first | rfl | second
  · exact iff_of_true (of_lt_of_precedes first a b) (.left _ _ first)
  · rw [of_lt_of_iff ha hb]
    constructor
    · intro earlier
      exact .right _ _ earlier
    · intro earlier
      cases earlier with
      | left _ _ itself => exact absurd itself (Nat.lt_irrefl _)
      | right _ _ earlier => exact earlier
  · have later := of_lt_of_precedes second b a
    refine iff_of_false (List.lt_asymm later) ?_
    intro earlier
    cases earlier with
    | left _ _ first => exact absurd first (Nat.lt_asymm second)
    | right _ _ _ => exact absurd second (Nat.lt_irrefl _)

/-- Keys are equal exactly where collection and identity are. -/
theorem of_eq_of_iff {c c' : Collection} {a : c.Identity} {b : c'.Identity} (ha : IsProper c a)
    (hb : IsProper c' b) :
    of c a = of c' b ↔ (⟨c, a⟩ : (c : Collection) × c.Identity) = ⟨c', b⟩ := by
  constructor
  · intro same
    obtain rfl := collection_of_eq same
    rw [of_injective ha hb same]
  · intro same
    cases same
    rfl

end Key

/-- **Keys are ordered as identities.** The keys of any two identities compare as these do: by
collection, then by the order of identities in it; they are equal for the same identity of the same
collection alone. Every key lies strictly between the bounds of its collection, the upper of which
is not above the lower one of any collection behind it, and below the key of the log position. -/
theorem keys_ordered_as_identities {c c' : Collection} {a : c.Identity} {b : c'.Identity}
    (ha : Key.IsProper c a) (hb : Key.IsProper c' b) :
    (Key.of c a < Key.of c' b ↔ Key.before ⟨c, a⟩ ⟨c', b⟩) ∧
      (Key.of c a = Key.of c' b ↔ (⟨c, a⟩ : (c : Collection) × c.Identity) = ⟨c', b⟩) ∧
      (c.least < Key.of c a ∧ Key.of c a < c.boundary ∧ Key.of c a < Key.applyIndex) ∧
      (c.precedes c' → c.boundary ≤ c'.least) :=
  ⟨Key.of_lt_of_iff_before ha hb, Key.of_eq_of_iff ha hb,
    ⟨Key.least_lt_of c a, Key.of_lt_boundary c a, Key.of_lt_applyIndex c a⟩,
    Collection.boundary_le_least⟩

/-- A shorter object key comes first, whatever its octets and the upload are. -/
theorem keys_ordered_by_length :
    let a : UploadId := ⟨"z", "zz"⟩
    let b : UploadId := ⟨"ab", ""⟩
    Key.IsProper .upload a ∧ Key.IsProper .upload b ∧ Key.of .upload a < Key.of .upload b := by
  intro a b
  have ha : Key.IsProper .upload a := by unfold Key.IsProper; decide
  have hb : Key.IsProper .upload b := by unfold Key.IsProper; decide
  have before : UploadId.before a b := by decide
  exact ⟨ha, hb, (keys_ordered_as_identities ha hb).1.mpr (.right _ _ before)⟩

end FileCatalog
