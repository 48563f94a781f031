import FileCatalog.Proofs.RoundTrip

/-!
# The octets that are read

`Layout.Exact` is the converse of reading back: what is read off the front of octets stands there as
it is written, and is of a size that can be written. It is proved for each way of putting layouts
together, but for maps. The entries of a map are read in any order, so what holds of maps is said of
the pairs that the octets list: `Attributes.listing` and `Upload.listing` are the layouts of the two
records with their map as it stands, a list of pairs.

`octets_canonical` puts both directions together. An inode and a directory entry have one form each.
Attributes and uploads have the form that is written, with the keys in ascending order, and others
that are read alike and are no shorter.
-/

namespace FileCatalog

namespace Layout

variable {α β : Type} {l : Layout α} {m : Layout β} {P : α → Prop} {Q : β → Prop}

/-! ## What a reader has read -/

/-- A reading in two steps succeeds if the first does and the second does with its result. -/
theorem bind_eq_ok {x : Except LayoutFault α} {f : α → Except LayoutFault β} {b : β} :
    (x >>= f) = .ok b ↔ ∃ a, x = .ok a ∧ f a = .ok b := by
  cases x with
  | error e => simp [bind, Except.bind]
  | ok a => simp [bind, Except.bind]

/-- A value is read by reading its parts and making it of them. -/
theorem read_via_iff {make : α → β} {parts : β → α} {bs rest : Bytes} {b : β} :
    (l.via make parts).read bs = .ok (b, rest) ↔ ∃ a, l.read bs = .ok (a, rest) ∧ make a = b := by
  constructor
  · intro read
    obtain ⟨⟨a, rest'⟩, first, made⟩ := bind_eq_ok.mp read
    cases made
    exact ⟨a, first, rfl⟩
  · rintro ⟨a, first, rfl⟩
    exact bind_eq_ok.mpr ⟨(a, rest), first, rfl⟩

/-- A map is read by reading a list of pairs and collecting them. -/
theorem read_map_iff {κ ν : Type} [ByteOrdered κ] {l : Layout κ} {m : Layout ν} {bs rest : Bytes}
    {entries : OrderedMap κ ν} :
    (Layout.map l m).read bs = .ok (entries, rest) ↔
      ∃ pairs, (list (l.pair m)).read bs = .ok (pairs, rest) ∧ OrderedMap.ofList pairs = entries :=
  read_via_iff

/-- A pair is read part by part, with the octets in between. -/
theorem read_pair_iff {bs rest : Bytes} {a : α} {b : β} :
    (l.pair m).read bs = .ok ((a, b), rest) ↔
      ∃ between, l.read bs = .ok (a, between) ∧ m.read between = .ok (b, rest) := by
  constructor
  · intro read
    obtain ⟨⟨a', between⟩, first, read'⟩ := bind_eq_ok.mp read
    obtain ⟨⟨b', rest'⟩, second, made⟩ := bind_eq_ok.mp read'
    cases made
    exact ⟨between, first, second⟩
  · rintro ⟨between, first, second⟩
    exact bind_eq_ok.mpr ⟨(a, between), first, bind_eq_ok.mpr ⟨(b, rest), second, rfl⟩⟩

/-- A whole value is one that leaves nothing over. -/
theorem decode_eq_ok_iff {bs : Bytes} {a : α} :
    l.decode bs = .ok a ↔ l.read bs = .ok (a, []) := by
  constructor
  · intro read
    obtain ⟨⟨a', rest⟩, first, ended⟩ := bind_eq_ok.mp read
    cases rest with
    | nil =>
      cases ended
      exact first
    | cons b rest => cases ended
  · intro read
    exact bind_eq_ok.mpr ⟨(a, []), read, rfl⟩

/-! ## Exactness -/

/-- What is read off the front of octets is written there, and has a property. -/
def Exact (l : Layout α) (P : α → Prop) : Prop :=
  ∀ bs rest a, l.read bs = .ok (a, rest) → bs = l.write a ++ rest ∧ P a

/-- What is decoded by an exact layout is what is written of the value, and nothing is left over. -/
theorem Exact.of_decode (h : l.Exact P) {bs : Bytes} {a : α} (read : l.decode bs = .ok a) :
    bs = l.write a ∧ P a := by
  obtain ⟨whole, property⟩ := h _ _ _ (decode_eq_ok_iff.mp read)
  rw [List.append_nil] at whole
  exact ⟨whole, property⟩

/-- Octets that are taken are the head of the octets, in the length that was asked for. -/
theorem takeOctets_eq_ok {w : Nat} {bs octets rest : Bytes}
    (taken : takeOctets w bs = .ok (octets, rest)) : bs = octets ++ rest ∧ octets.length = w := by
  unfold takeOctets at taken
  simp only at taken
  split at taken
  next length =>
    cases taken
    exact ⟨(List.take_append_drop w bs).symm, length⟩
  next => cases taken

/-- A number is read from its own octets only, and fits them. -/
theorem word_exact (w : Nat) : (word w).Exact (· < Bytes.capacity w) := by
  intro bs rest n read
  obtain ⟨⟨octets, rest'⟩, taken, made⟩ := bind_eq_ok.mp read
  cases made
  obtain ⟨rfl, rfl⟩ := takeOctets_eq_ok taken
  refine ⟨?_, Bytes.ofLittleEndian_lt octets⟩
  show octets ++ rest = Bytes.littleEndian octets.length (Bytes.ofLittleEndian octets) ++ rest
  rw [Bytes.littleEndian_ofLittleEndian]

/-- A layout through parts is exact if the parts of what is made are the parts that were read. -/
theorem Exact.via (h : l.Exact P) {make : α → β} {parts : β → α}
    (again : ∀ a, P a → parts (make a) = a) (kept : ∀ a, P a → Q (make a)) :
    (l.via make parts).Exact Q := by
  intro bs rest b read
  obtain ⟨a, first, rfl⟩ := read_via_iff.mp read
  obtain ⟨written, property⟩ := h _ _ _ first
  refine ⟨?_, kept a property⟩
  show bs = l.write (parts (make a)) ++ rest
  rw [again a property]
  exact written

/-- Any octet is a number in one way. -/
theorem word8_exact : word8.Exact fun _ => True :=
  (word_exact 1).via (fun _ small => UInt8.toNat_ofNat_of_lt' small) fun _ _ => trivial

theorem word16_exact : word16.Exact fun _ => True :=
  (word_exact 2).via (fun _ small => UInt16.toNat_ofNat_of_lt' small) fun _ _ => trivial

theorem word32_exact : word32.Exact fun _ => True :=
  (word_exact 4).via (fun _ small => UInt32.toNat_ofNat_of_lt' small) fun _ _ => trivial

theorem word64_exact : word64.Exact fun _ => True :=
  (word_exact 8).via (fun _ small => UInt64.toNat_ofNat_of_lt' small) fun _ _ => trivial

theorem signed64_exact : signed64.Exact fun _ => True :=
  word64_exact.via (fun n _ => by simp) fun _ _ => trivial

/-- A pair is exact if its parts are. -/
theorem Exact.pair (h : l.Exact P) (k : m.Exact Q) : (l.pair m).Exact fun x => P x.1 ∧ Q x.2 := by
  rintro bs rest ⟨a, b⟩ read
  obtain ⟨between, first, second⟩ := read_pair_iff.mp read
  obtain ⟨rfl, hp⟩ := h _ _ _ first
  obtain ⟨rfl, hq⟩ := k _ _ _ second
  refine ⟨?_, hp, hq⟩
  show l.write a ++ (m.write b ++ rest) = l.write a ++ m.write b ++ rest
  rw [List.append_assoc]

/-- Values that were read in turn are written again as the octets they were read from. -/
theorem readMany_exact (h : l.Exact P) {n : Nat} {bs rest : Bytes} {as : List α}
    (read : readMany l.read n bs = .ok (as, rest)) :
    bs = as.flatMap l.write ++ rest ∧ as.length = n ∧ ∀ a ∈ as, P a := by
  induction n generalizing bs as with
  | zero =>
    cases read
    exact ⟨rfl, rfl, fun a ha => absurd ha List.not_mem_nil⟩
  | succ n ih =>
    obtain ⟨⟨a, between⟩, first, read⟩ := bind_eq_ok.mp read
    obtain ⟨⟨as', rest'⟩, others, made⟩ := bind_eq_ok.mp read
    cases made
    obtain ⟨rfl, property⟩ := h _ _ _ first
    obtain ⟨rfl, length, properties⟩ := ih others
    refine ⟨?_, congrArg (· + 1) length, ?_⟩
    · rw [List.flatMap_cons, List.append_assoc]
    · intro a' ha'
      rcases List.mem_cons.mp ha' with rfl | later
      · exact property
      · exact properties a' later

/-- A list is exact if its items are, and its length is a word. -/
theorem list_exact (h : l.Exact P) :
    (list l).Exact fun as => as.length < UInt64.size ∧ ∀ a ∈ as, P a := by
  intro bs rest as read
  obtain ⟨⟨n, between⟩, number, items⟩ := bind_eq_ok.mp read
  obtain ⟨rfl, -⟩ := word64_exact _ _ _ number
  obtain ⟨rfl, length, properties⟩ := readMany_exact h items
  refine ⟨?_, length ▸ n.toNat_lt, properties⟩
  show word64.write n ++ (as.flatMap l.write ++ rest) =
    word64.write (UInt64.ofNat as.length) ++ as.flatMap l.write ++ rest
  rw [length, UInt64.ofNat_toNat, List.append_assoc]

/-- A byte string is read from its length and its octets, and from nothing else. -/
theorem bytes_exact : Layout.bytes.Exact fun octets => octets.length < UInt64.size := by
  intro bs rest octets read
  obtain ⟨written, fits, -⟩ := list_exact word8_exact _ _ _ read
  exact ⟨written, fits⟩

/-- A text is read from its octets in UTF-8 only, since these are the only ones that decode to it.
-/
theorem text_exact : text.Exact Text.Fits := by
  intro bs rest s read
  obtain ⟨⟨n, between⟩, number, octets⟩ := bind_eq_ok.mp read
  obtain ⟨rfl, -⟩ := word64_exact _ _ _ number
  simp only at octets
  split at octets
  next length =>
    split at octets
    next s' decoded =>
      cases octets
      have split := List.take_append_drop n.toNat between
      rw [Utf8.eq_encode_of_decode decoded] at length split
      refine ⟨?_, show (Utf8.encode s).length < UInt64.size from length ▸ n.toNat_lt⟩
      show word64.write n ++ between = word64.write (UInt64.ofNat (Utf8.encode s).length) ++
        Utf8.encode s ++ between.drop n.toNat
      rw [length, UInt64.ofNat_toNat, List.append_assoc, split]
    next => cases octets
  next => cases octets

/-! ## Pairs of a map -/

/-- Layouts tell values apart that are read back. -/
theorem ReadsBack.eq_of_write {a b : α} (ha : l.ReadsBack a) (hb : l.ReadsBack b)
    (same : l.write a = l.write b) : a = b := by
  have read := ha.decode
  rw [same, hb.decode] at read
  exact (Except.ok.inj read).symm

section Pairs

variable {κ ν : Type} [ByteOrdered κ] {l : Layout κ} {m : Layout ν} {P : κ → Prop} {Q : ν → Prop}

/-- A list of pairs can be written, if it is no longer than its length field says and each key and
each value has a property. -/
def PairsFit (P : κ → Prop) (Q : ν → Prop) (pairs : List (κ × ν)) : Prop :=
  pairs.length < UInt64.size ∧ ∀ e ∈ pairs, P e.1 ∧ Q e.2

omit [ByteOrdered κ] in
/-- Pairs that fit read back as a list, whatever the order of their keys. -/
theorem PairsFit.readsBack {pairs : List (κ × ν)} (fits : PairsFit P Q pairs)
    (keys : ∀ k, P k → l.ReadsBack k) (values : ∀ v, Q v → m.ReadsBack v) :
    (list (l.pair m)).ReadsBack pairs :=
  list_readsBack fits.1 fun e listed =>
    (keys e.1 (fits.2 e listed).1).pair (values e.2 (fits.2 e listed).2)

/-- Collecting pairs into a map leaves them fitting: there are no more, and none is new. -/
theorem PairsFit.ofList {pairs : List (κ × ν)} (fits : PairsFit P Q pairs) :
    PairsFit P Q (OrderedMap.ofList pairs).entries :=
  ⟨Nat.lt_of_le_of_lt (OrderedMap.length_entries_ofList_le pairs) fits.1,
    fun e listed => fits.2 e (OrderedMap.mem_of_mem_entries_ofList listed)⟩

/-- The keys of the pairs ascend, so that no key stands twice. -/
def KeysAscend (pairs : List (κ × ν)) : Prop :=
  pairs.Pairwise fun a b => ByteOrdered.bytes a.1 < ByteOrdered.bytes b.1

/-- The octets `written` are the form of a map whose pairs `bs` lists: the same octets if the keys
of these pairs ascend, otherwise others, and no more of them. -/
structure WrittenFor (pairs : List (κ × ν)) (bs written : Bytes) : Prop where
  same_iff : written = bs ↔ KeysAscend pairs
  otherwise : ¬ KeysAscend pairs → written ≠ bs ∧ written.length ≤ bs.length

/-- Behind any octets, the entries of a map are written for the pairs that it was made from. -/
theorem writtenFor_entries {pairs : List (κ × ν)} (fits : PairsFit P Q pairs)
    (keys : ∀ k, P k → l.ReadsBack k) (values : ∀ v, Q v → m.ReadsBack v) (front : Bytes) :
    WrittenFor pairs (front ++ (list (l.pair m)).write pairs)
      (front ++ (list (l.pair m)).write (OrderedMap.ofList pairs).entries) := by
  have same : front ++ (list (l.pair m)).write (OrderedMap.ofList pairs).entries =
      front ++ (list (l.pair m)).write pairs ↔ KeysAscend pairs := by
    rw [List.append_cancel_left_eq, KeysAscend, ← OrderedMap.entries_ofList_eq_iff]
    constructor
    · exact (fits.ofList.readsBack keys values).eq_of_write (fits.readsBack keys values)
    · intro entries
      rw [entries]
  refine ⟨same, fun unordered => ⟨fun equal => unordered (same.mp equal), ?_⟩⟩
  have room := OrderedMap.length_flatMap_ofList_le (l.pair m).write pairs
  simp only [list, List.length_append]
  have number : ∀ n : UInt64, (word64.write n).length = 8 := fun n =>
    Bytes.length_littleEndian 8 n.toNat
  rw [number, number]
  omega

end Pairs

end Layout

open Layout

/-! ## Records -/

/-- Octets of an extent are those that it is written as. -/
theorem Extent.exact : Extent.layout.Exact fun _ => True := by
  have fields := word64_exact.pair <| word64_exact.pair <| word64_exact.pair <|
    word64_exact.pair <| word32_exact.pair word32_exact
  exact fields.via (fun _ _ => rfl) fun _ _ => trivial

/-- A part is exact, and its checksum fits. -/
theorem Part.exact : Part.layout.Exact fun p => Text.Fits p.md5 := by
  have fields := word16_exact.pair <| signed64_exact.pair <| text_exact.pair <|
    word64_exact.pair word64_exact
  refine fields.via (fun _ _ => rfl) ?_
  rintro ⟨number, uploadTime, md5, size, inode⟩ ⟨-, -, fits, -⟩
  exact fits

/-- An inode is exact, and its lengths are words. -/
theorem Inode.exact : Inode.layout.Exact Inode.Fits := by
  have fields := word64_exact.pair <| word32_exact.pair <| word32_exact.pair <| word32_exact.pair <|
    word64_exact.pair <| word64_exact.pair <| signed64_exact.pair <| signed64_exact.pair <|
    signed64_exact.pair <| bytes_exact.pair <| word32_exact.pair <| word32_exact.pair <|
    list_exact Extent.exact
  refine fields.via (fun _ _ => rfl) ?_
  rintro ⟨number, mode, uid, gid, size, generation, createTime, accessTime, modifyTime, linkTarget,
    linkCount, flag, extents⟩ ⟨-, -, -, -, -, -, -, -, -, linkTarget, -, -, extents, -⟩
  exact ⟨linkTarget, extents⟩

/-- A directory entry is exact, and its name fits. -/
theorem Dentry.exact : Dentry.layout.Exact fun d => Text.Fits d.name := by
  have fields := word64_exact.pair <| text_exact.pair <| word64_exact.pair word32_exact
  refine fields.via (fun _ _ => rfl) ?_
  rintro ⟨parent, name, inode, mode⟩ ⟨-, fits, -⟩
  exact fits

/-- The octets of attributes, with the pairs of the map as they are listed. -/
def Attributes.listing : Layout (UInt64 × List (Bytes × Bytes)) :=
  word64.pair <| list <| Layout.bytes.pair Layout.bytes

/-- The octets of an upload, with the pairs of the map as they are listed. -/
def Upload.listing : Layout (String × String × Int64 × List Part × List (String × String)) :=
  text.pair <| text.pair <| signed64.pair <| (list Part.layout).pair <| list <| text.pair text

/-- As a list of pairs, in the order of the octets, a record of attributes is exact. -/
theorem Attributes.listing_exact : listing.Exact fun x =>
    True ∧ PairsFit (·.length < UInt64.size) (·.length < UInt64.size) x.2 :=
  word64_exact.pair <| list_exact <| bytes_exact.pair bytes_exact

/-- As a list of pairs for its map, a record of an upload is exact. -/
theorem Upload.listing_exact : listing.Exact fun x =>
    Text.Fits x.1 ∧ Text.Fits x.2.1 ∧ True ∧
      (x.2.2.2.1.length < UInt64.size ∧ ∀ p ∈ x.2.2.2.1, Text.Fits p.md5) ∧
      PairsFit Text.Fits Text.Fits x.2.2.2.2 :=
  text_exact.pair <| text_exact.pair <| signed64_exact.pair <| (list_exact Part.exact).pair <|
    list_exact <| text_exact.pair text_exact

/-- Attributes are read by reading the pairs of their map. -/
theorem Attributes.decode_eq_ok_iff {bs : Bytes} {a : Attributes} :
    Attributes.layout.decode bs = .ok a ↔
      ∃ pairs, listing.decode bs = .ok (a.inode, pairs) ∧ a.values = .ofList pairs := by
  simp only [Layout.decode_eq_ok_iff]
  constructor
  · intro read
    obtain ⟨⟨inode, values⟩, fields, rfl⟩ := read_via_iff.mp read
    obtain ⟨between, hinode, hvalues⟩ := read_pair_iff.mp fields
    obtain ⟨pairs, hpairs, rfl⟩ := read_map_iff.mp hvalues
    exact ⟨pairs, read_pair_iff.mpr ⟨between, hinode, hpairs⟩, rfl⟩
  · rintro ⟨pairs, listed, made⟩
    obtain ⟨between, hinode, hpairs⟩ := read_pair_iff.mp listed
    have hvalues := read_map_iff.mpr ⟨pairs, hpairs, made.symm⟩
    have fields := read_pair_iff.mpr ⟨between, hinode, hvalues⟩
    exact read_via_iff.mpr ⟨(a.inode, a.values), fields, rfl⟩

/-- Uploads are read by reading the pairs of their map. -/
theorem Upload.decode_eq_ok_iff {bs : Bytes} {u : Upload} :
    Upload.layout.decode bs = .ok u ↔
      ∃ pairs, listing.decode bs = .ok (u.key, u.upload, u.startTime, u.parts, pairs) ∧
        u.extend = .ofList pairs := by
  simp only [Layout.decode_eq_ok_iff]
  constructor
  · intro read
    obtain ⟨⟨key, upload, startTime, parts, extend⟩, fields, rfl⟩ := read_via_iff.mp read
    obtain ⟨r₁, hkey, fields⟩ := read_pair_iff.mp fields
    obtain ⟨r₂, hupload, fields⟩ := read_pair_iff.mp fields
    obtain ⟨r₃, hstartTime, fields⟩ := read_pair_iff.mp fields
    obtain ⟨r₄, hparts, hextend⟩ := read_pair_iff.mp fields
    obtain ⟨pairs, hpairs, rfl⟩ := read_map_iff.mp hextend
    refine ⟨pairs, ?_, rfl⟩
    exact read_pair_iff.mpr ⟨r₁, hkey, read_pair_iff.mpr ⟨r₂, hupload, read_pair_iff.mpr
      ⟨r₃, hstartTime, read_pair_iff.mpr ⟨r₄, hparts, hpairs⟩⟩⟩⟩
  · rintro ⟨pairs, listed, made⟩
    obtain ⟨r₁, hkey, fields⟩ := read_pair_iff.mp listed
    obtain ⟨r₂, hupload, fields⟩ := read_pair_iff.mp fields
    obtain ⟨r₃, hstartTime, fields⟩ := read_pair_iff.mp fields
    obtain ⟨r₄, hparts, hpairs⟩ := read_pair_iff.mp fields
    have hextend := read_map_iff.mpr ⟨pairs, hpairs, made.symm⟩
    refine read_via_iff.mpr ⟨(u.key, u.upload, u.startTime, u.parts, u.extend), ?_, rfl⟩
    exact read_pair_iff.mpr ⟨r₁, hkey, read_pair_iff.mpr ⟨r₂, hupload, read_pair_iff.mpr
      ⟨r₃, hstartTime, read_pair_iff.mpr ⟨r₄, hparts, hextend⟩⟩⟩⟩

/-- Attributes are written with their pairs collected: no longer than they were read, and the same
exactly if the names ascend. -/
theorem Attributes.writtenFor {bs : Bytes} {a : Attributes} {pairs : List (Bytes × Bytes)}
    (read : listing.decode bs = .ok (a.inode, pairs)) (made : a.values = .ofList pairs) :
    WrittenFor pairs bs (Attributes.layout.write a) := by
  obtain ⟨rfl, -, fits⟩ := listing_exact.of_decode read
  have octets : Attributes.layout.write a = word64.write a.inode ++
      (list (Layout.bytes.pair Layout.bytes)).write (OrderedMap.ofList pairs).entries := by
    rw [← made]
    rfl
  rw [octets]
  exact writtenFor_entries fits (fun _ => bytes_readsBack) (fun _ => bytes_readsBack) _

/-- Likewise an upload, by the pairs of its map. -/
theorem Upload.writtenFor {bs : Bytes} {u : Upload} {pairs : List (String × String)}
    (read : listing.decode bs = .ok (u.key, u.upload, u.startTime, u.parts, pairs))
    (made : u.extend = .ofList pairs) : WrittenFor pairs bs (Upload.layout.write u) := by
  obtain ⟨written, -, -, -, -, fits⟩ := listing_exact.of_decode read
  -- All fields stand before the map, so they are one piece of octets in front of it.
  let front := text.write u.key ++ (text.write u.upload ++ (signed64.write u.startTime ++
    (list Part.layout).write u.parts))
  have listed : bs = front ++ (list (text.pair text)).write pairs := by
    rw [written]
    simp only [front, List.append_assoc]
    rfl
  have octets : Upload.layout.write u =
      front ++ (list (text.pair text)).write (OrderedMap.ofList pairs).entries := by
    rw [← made]
    simp only [front, List.append_assoc]
    rfl
  rw [listed, octets]
  exact writtenFor_entries fits (fun _ => text_readsBack) (fun _ => text_readsBack) _

namespace Collection

/-- A collection decodes what its layout does. -/
theorem decode_eq_ok_iff {c : Collection} {bs : Bytes} {r : c.Record} :
    c.decode bs = .ok r ↔ c.layout.decode bs = .ok r := by
  unfold decode
  cases c.layout.decode bs with
  | error e => simp
  | ok r' => simp

end Collection

/-- **The octets of records are canonical.** Every record is read back from its octets. Octets that
are read as an inode or a directory entry are the octets of it. Octets that are read as attributes
or an upload list the pairs of its map; they are the octets of the record exactly when the keys of
these pairs ascend, otherwise the record has others, and no more of them. -/
theorem octets_canonical :
    (∀ {c : Collection} {r : c.Record}, c.Fits r → c.decode (c.encode r) = .ok r) ∧
      (∀ {bs : Bytes} {i : Inode}, Collection.inode.decode bs = .ok i →
        Collection.inode.encode i = bs) ∧
      (∀ {bs : Bytes} {d : Dentry}, Collection.dentry.decode bs = .ok d →
        Collection.dentry.encode d = bs) ∧
      (∀ {bs : Bytes} {a : Attributes}, Collection.attributes.decode bs = .ok a →
        ∃ pairs, Attributes.listing.decode bs = .ok (a.inode, pairs) ∧ a.values = .ofList pairs ∧
          WrittenFor pairs bs (Collection.attributes.encode a)) ∧
      ∀ {bs : Bytes} {u : Upload}, Collection.upload.decode bs = .ok u →
        ∃ pairs, Upload.listing.decode bs = .ok (u.key, u.upload, u.startTime, u.parts, pairs) ∧
          u.extend = .ofList pairs ∧ WrittenFor pairs bs (Collection.upload.encode u) := by
  refine ⟨Collection.decode_encode, ?inode, ?dentry, ?attributes, ?upload⟩
  case inode =>
    intro bs i read
    exact (Inode.exact.of_decode (Collection.decode_eq_ok_iff.mp read)).1.symm
  case dentry =>
    intro bs d read
    exact (Dentry.exact.of_decode (Collection.decode_eq_ok_iff.mp read)).1.symm
  case attributes =>
    intro bs a read
    obtain ⟨pairs, listed, made⟩ :=
      Attributes.decode_eq_ok_iff.mp (Collection.decode_eq_ok_iff.mp read)
    exact ⟨pairs, listed, made, Attributes.writtenFor listed made⟩
  case upload =>
    intro bs u read
    obtain ⟨pairs, listed, made⟩ :=
      Upload.decode_eq_ok_iff.mp (Collection.decode_eq_ok_iff.mp read)
    exact ⟨pairs, listed, made, Upload.writtenFor listed made⟩

/-- Attributes whose names are listed in descending order, one of them twice, are read and have
other octets of their own. -/
theorem octets_of_descending_names :
    let pairs : List (Bytes × Bytes) := [([2], [9]), ([1], [8]), ([2], [])]
    let bs := Attributes.listing.write (7, pairs)
    let a : Attributes := { inode := 7, values := .ofList pairs }
    Collection.attributes.decode bs = .ok a ∧ Collection.attributes.encode a ≠ bs ∧
      (Collection.attributes.encode a).length ≤ bs.length := by
  intro pairs bs a
  have fits : PairsFit (·.length < UInt64.size) (·.length < UInt64.size) pairs := by
    simp [PairsFit, pairs, UInt64.size]
  have back := fits.readsBack (fun _ => bytes_readsBack) (fun _ => bytes_readsBack)
  have decodes : Attributes.listing.decode bs = .ok (7, pairs) :=
    ((word64_readsBack 7).pair back).decode
  have read : Collection.attributes.decode bs = .ok a :=
    Collection.decode_eq_ok_iff.mpr (Attributes.decode_eq_ok_iff.mpr ⟨pairs, decodes, rfl⟩)
  obtain ⟨listed, decoded, -, written⟩ := octets_canonical.2.2.2.1 read
  have same : pairs = listed := congrArg Prod.snd (Except.ok.inj (decodes.symm.trans decoded))
  have descending : ¬ KeysAscend listed := by
    rw [← same]
    unfold KeysAscend
    decide
  exact ⟨read, written.otherwise descending⟩

end FileCatalog
