import FileCatalog.Proofs.Canonical

/-!
# Octets that break off

Octets that are read as a record are a sequence of pieces: the octets of numbers, the octets of
texts. `Layout.InPieces` says how, for any layout that is put together from words and texts. The
octets need not be the ones that are written, since a map is read from its entries in any order.

Where octets break off decides how they are refused. Inside a number their reader misses octets.
Inside a text it knows how many there should be, since the length stands before the text and is
complete. A byte string is a list of octets, each a number of its own, so it breaks off as numbers
do. `InPieces.cut` is this law for every layout. It does not need the content of a text that breaks
off, so such octets are never refused for what the text says.

`record_ends_with_octets` reads off what this means for records: no octets that are read as a record
begin others that are.
-/

namespace FileCatalog

/-! ## Pieces -/

/-- A piece of octets that is read at once. -/
inductive Piece where
  | number (octets : Bytes)
  | text (octets : Bytes)

namespace Piece

/-- The octets of a piece, whatever its kind. -/
def octets : Piece → Bytes
  | number octets | text octets => octets

/-- How octets are refused that break off inside the piece. -/
def fault : Piece → LayoutFault
  | number _ => .endOfInput
  | text _ => .textPastEnd

/-- What a failed read says of octets that break off inside the piece. -/
def shortage : Piece → String
  | number _ => "unexpected end of file"
  | text _ => ""

/-- The wording below the fault names what the piece is short of. -/
theorem cause_fault (p : Piece) (c : Collection) :
    (StoreError.decode c p.fault).cause? = some s!"io error: {p.shortage}" := by
  cases p with
  | number | text => rfl

/-- The octets of pieces in turn. -/
def join (ps : List Piece) : Bytes := ps.flatMap octets

/-- No pieces have no octets. -/
@[simp] theorem join_nil : join [] = [] := rfl

@[simp] theorem join_cons (p : Piece) (ps : List Piece) : join (p :: ps) = p.octets ++ join ps :=
  rfl

/-- The octets of pieces come in the order of the pieces. -/
@[simp] theorem join_append (ps qs : List Piece) : join (ps ++ qs) = join ps ++ join qs :=
  List.flatMap_append

/-- The octets break off inside a piece of a sequence, or right before it. -/
inductive EndsIn : List Piece → Bytes → Piece → Prop
  | here {p : Piece} {ps : List Piece} {part : Bytes} (front : part <+: p.octets)
      (short : part.length < p.octets.length) : EndsIn (p :: ps) part p
  | later {p q : Piece} {ps : List Piece} {bs : Bytes} (inside : EndsIn ps bs p) :
      EndsIn (q :: ps) (q.octets ++ bs) p

/-- Octets that are cut short break off inside some piece. -/
theorem exists_endsIn {ps : List Piece} {bs : Bytes} (front : bs <+: join ps)
    (short : bs ≠ join ps) : ∃ p, EndsIn ps bs p := by
  induction ps generalizing bs with
  | nil => exact absurd (List.prefix_nil.mp front) short
  | cons p ps ih =>
    rw [join_cons] at front short
    by_cases inside : bs.length < p.octets.length
    · exact ⟨p, .here (List.prefix_of_prefix_length_le front (List.prefix_append _ _)
        (Nat.le_of_lt inside)) inside⟩
    · obtain ⟨rest, rfl⟩ := List.prefix_of_prefix_length_le (List.prefix_append _ _) front
        (Nat.le_of_not_lt inside)
      have shorter : rest ≠ join ps := fun same => short (congrArg _ same)
      obtain ⟨q, ends⟩ := ih ((List.prefix_append_right_inj _).mp front) shorter
      exact ⟨q, .later ends⟩

/-- An end in two runs of pieces is in the first run, or behind it in the second. -/
theorem EndsIn.split {ps qs : List Piece} {bs : Bytes} {p : Piece} (ends : EndsIn (ps ++ qs) bs p) :
    EndsIn ps bs p ∨ ∃ rest, bs = join ps ++ rest ∧ EndsIn qs rest p := by
  induction ps generalizing bs with
  | nil => exact Or.inr ⟨bs, rfl, ends⟩
  | cons q ps ih =>
    cases ends with
    | here front short => exact Or.inl (.here front short)
    | later inside =>
      rcases ih inside with within | ⟨rest, rfl, after⟩
      · exact Or.inl (.later within)
      · exact Or.inr ⟨rest, (List.append_assoc _ _ _).symm, after⟩

/-- What ends in a single piece is shorter than it. -/
theorem EndsIn.singleton {p q : Piece} {bs : Bytes} (ends : EndsIn [q] bs p) :
    p = q ∧ bs.length < q.octets.length := by
  cases ends with
  | here front short => exact ⟨rfl, short⟩
  | later inside => cases inside

end Piece

/-! ## Values in pieces -/

namespace Layout

open Piece

variable {α β : Type}

/-- The pieces are octets of a value. A value that is laid out as another has all octets of
the other, also where it writes only some of them. -/
inductive InPieces : {α : Type} → Layout α → α → List Piece → Prop
  | word {w : Nat} {octets : Bytes} (length : octets.length = w) :
      InPieces (word w) (Bytes.ofLittleEndian octets) [.number octets]
  | via {α β : Type} {l : Layout α} {make : α → β} {parts : β → α} {a : α} {ps : List Piece}
      (value : InPieces l a ps) : InPieces (l.via make parts) (make a) ps
  | pair {α β : Type} {l : Layout α} {m : Layout β} {a : α} {b : β} {ps qs : List Piece}
      (first : InPieces l a ps) (second : InPieces m b qs) : InPieces (l.pair m) (a, b) (ps ++ qs)
  | list {α : Type} {l : Layout α} {n : UInt64} {ps : List Piece} {items : List (α × List Piece)}
      (number : InPieces word64 n ps) (length : items.length = n.toNat)
      (each : ∀ item ∈ items, InPieces l item.1 item.2) :
      InPieces (list l) (items.map (·.1)) (ps ++ items.flatMap (·.2))
  | text {n : UInt64} {ps : List Piece} {s : String} (number : InPieces word64 n ps)
      (length : (Utf8.encode s).length = n.toNat) :
      InPieces text s (ps ++ [.text (Utf8.encode s)])

/-- Values that are read from their own pieces are read in turn from all of them. -/
private theorem readMany_items {l : Layout α} {items : List (α × List Piece)}
    (each : ∀ item ∈ items, ∀ rest, l.read (join item.2 ++ rest) = .ok (item.1, rest))
    (rest : Bytes) :
    readMany l.read items.length (join (items.flatMap (·.2)) ++ rest) =
      .ok (items.map (·.1), rest) := by
  induction items with
  | nil => rfl
  | cons item items ih =>
    have first := each item List.mem_cons_self (join (items.flatMap (·.2)) ++ rest)
    have others := ih fun item listed => each item (List.mem_cons_of_mem _ listed)
    rw [List.flatMap_cons, join_append, List.append_assoc, List.length_cons, readMany, first]
    simp only [bind, Except.bind, others]
    rfl

/-- A value is read from its pieces, whatever comes behind them. -/
theorem InPieces.read {l : Layout α} {a : α} {ps : List Piece} (pieces : l.InPieces a ps)
    (rest : Bytes) : l.read (join ps ++ rest) = .ok (a, rest) := by
  induction pieces generalizing rest with
  | word length =>
    have taken := takeOctets_append length rest
    simp only [join_cons, join_nil, List.append_nil, octets, Layout.word, taken]
    rfl
  | via value ih =>
    simp only [Layout.via, ih]
    rfl
  | pair first second ih₁ ih₂ =>
    rw [join_append, List.append_assoc]
    simp only [Layout.pair, ih₁, bind, Except.bind, ih₂]
    rfl
  | list number length each ih₁ ih₂ =>
    rw [join_append, List.append_assoc]
    have items := readMany_items ih₂ rest
    rw [length] at items
    simp only [Layout.list, ih₁, bind, Except.bind, items]
  | text number length ih =>
    rw [join_append, List.append_assoc]
    simp only [Layout.text, ih, bind, Except.bind, join_cons, join_nil, List.append_nil, octets,
      ← length, List.take_left, List.drop_left, if_true, Utf8.decode_encode]
    rfl

/-! ## Octets that break off -/

/-- Where octets end in the pieces of one of the values, reading them in turn fails as that value
fails. -/
private theorem readMany_cut {l : Layout α} {items : List (α × List Piece)} {bs : Bytes} {p : Piece}
    (each : ∀ item ∈ items, l.InPieces item.1 item.2)
    (cut : ∀ item ∈ items, ∀ {bs}, EndsIn item.2 bs p → l.read bs = .error p.fault)
    (ends : EndsIn (items.flatMap (·.2)) bs p) :
    readMany l.read items.length bs = .error p.fault := by
  induction items generalizing bs with
  | nil => cases ends
  | cons item items ih =>
    rw [List.length_cons, readMany]
    rcases EndsIn.split ends with inside | ⟨rest, rfl, after⟩
    · rw [cut item List.mem_cons_self inside]
      rfl
    · have others := ih (fun item listed => each item (List.mem_cons_of_mem _ listed))
        (fun item listed => cut item (List.mem_cons_of_mem _ listed)) after
      rw [(each item List.mem_cons_self).read rest]
      simp only [bind, Except.bind, others]

/-- Octets that break off inside a piece are refused for it. -/
theorem InPieces.cut {l : Layout α} {a : α} {ps : List Piece} {bs : Bytes} {p : Piece}
    (pieces : l.InPieces a ps) (ends : EndsIn ps bs p) : l.read bs = .error p.fault := by
  induction pieces generalizing bs with
  | @word w octets length =>
    obtain ⟨rfl, short⟩ := ends.singleton
    have missed : (bs.take w).length ≠ w := by
      have : bs.length < w := length ▸ short
      rw [List.length_take]
      omega
    simp only [Layout.word, takeOctets, if_neg missed]
    rfl
  | via value ih =>
    simp only [Layout.via, ih ends]
    rfl
  | pair first second ih₁ ih₂ =>
    rcases ends.split with inside | ⟨rest, rfl, after⟩
    · simp only [Layout.pair, ih₁ inside]
      rfl
    · simp only [Layout.pair, first.read, bind, Except.bind, ih₂ after]
  | list number length each ih₁ ih₂ =>
    rcases ends.split with inside | ⟨rest, rfl, after⟩
    · simp only [Layout.list, ih₁ inside]
      rfl
    · have items := readMany_cut each (fun item listed _ => ih₂ item listed) after
      rw [length] at items
      simp only [Layout.list, number.read, bind, Except.bind, items]
  | @text n ps s number length ih =>
    rcases ends.split with inside | ⟨rest, rfl, after⟩
    · simp only [Layout.text, ih inside]
      rfl
    · obtain ⟨rfl, short⟩ := after.singleton
      have missed : (rest.take n.toNat).length ≠ n.toNat := by
        have : rest.length < n.toNat := length ▸ short
        rw [List.length_take]
        omega
      simp only [Layout.text, number.read, bind, Except.bind, if_neg missed]
      rfl

/-! ## What is read is in pieces -/

/-- Whatever the layout reads off the front of octets stands there in pieces. -/
def Pieced (l : Layout α) : Prop :=
  ∀ bs rest a, l.read bs = .ok (a, rest) → ∃ ps, l.InPieces a ps ∧ bs = join ps ++ rest

variable {l : Layout α} {m : Layout β}

/-- A number is one piece: its octets are there as a whole or not at all. -/
theorem word_pieced (w : Nat) : (word w).Pieced := by
  intro bs rest n read
  obtain ⟨⟨octets, rest'⟩, taken, made⟩ := bind_eq_ok.mp read
  cases made
  obtain ⟨rfl, length⟩ := takeOctets_eq_ok taken
  exact ⟨_, .word length, by simp [Piece.octets]⟩

/-- What is made of the value does not change the pieces it is read from. -/
theorem Pieced.via (h : l.Pieced) (make : α → β) (parts : β → α) : (l.via make parts).Pieced := by
  intro bs rest b read
  obtain ⟨a, first, rfl⟩ := read_via_iff.mp read
  obtain ⟨ps, pieces, whole⟩ := h _ _ _ first
  exact ⟨ps, .via pieces, whole⟩

theorem word8_pieced : word8.Pieced := (word_pieced 1).via _ _

theorem word16_pieced : word16.Pieced := (word_pieced 2).via _ _

theorem word32_pieced : word32.Pieced := (word_pieced 4).via _ _

theorem word64_pieced : word64.Pieced := (word_pieced 8).via _ _

theorem signed64_pieced : signed64.Pieced := word64_pieced.via _ _

/-- The pieces of a pair are those of its parts. -/
theorem Pieced.pair (h : l.Pieced) (k : m.Pieced) : (l.pair m).Pieced := by
  rintro bs rest ⟨a, b⟩ read
  obtain ⟨between, first, second⟩ := read_pair_iff.mp read
  obtain ⟨ps, pieces₁, rfl⟩ := h _ _ _ first
  obtain ⟨qs, pieces₂, rfl⟩ := k _ _ _ second
  exact ⟨ps ++ qs, .pair pieces₁ pieces₂, by simp⟩

/-- Values that were read in turn have pieces each, and the octets are these and the rest. -/
private theorem readMany_pieced (h : l.Pieced) {n : Nat} {bs rest : Bytes} {as : List α}
    (read : readMany l.read n bs = .ok (as, rest)) :
    ∃ items : List (α × List Piece), items.length = n ∧ items.map (·.1) = as ∧
      (∀ item ∈ items, l.InPieces item.1 item.2) ∧ bs = join (items.flatMap (·.2)) ++ rest := by
  induction n generalizing bs as with
  | zero =>
    cases read
    exact ⟨[], rfl, rfl, fun item listed => absurd listed List.not_mem_nil, rfl⟩
  | succ n ih =>
    obtain ⟨⟨a, between⟩, first, read⟩ := bind_eq_ok.mp read
    obtain ⟨⟨as', rest'⟩, others, made⟩ := bind_eq_ok.mp read
    cases made
    obtain ⟨ps, pieces, rfl⟩ := h _ _ _ first
    obtain ⟨items, length, rfl, each, rfl⟩ := ih others
    refine ⟨(a, ps) :: items, congrArg (· + 1) length, rfl, ?_, by simp⟩
    intro item listed
    rcases List.mem_cons.mp listed with rfl | later
    · exact pieces
    · exact each item later

/-- A list is in pieces: that of its length, and those of its items. -/
theorem Pieced.list (h : l.Pieced) : (list l).Pieced := by
  intro bs rest as read
  obtain ⟨⟨n, between⟩, number, items⟩ := bind_eq_ok.mp read
  obtain ⟨ps, pieces, rfl⟩ := word64_pieced _ _ _ number
  obtain ⟨items, length, rfl, each, rfl⟩ := readMany_pieced h items
  exact ⟨_, .list pieces length each, by simp⟩

/-- A byte string is its length, one piece, then its octets, each a piece. -/
theorem bytes_pieced : Layout.bytes.Pieced := word8_pieced.list

/-- A text is two pieces: that of its length and that of its octets, which are asked for as a whole.
-/
theorem text_pieced : text.Pieced := by
  intro bs rest s read
  obtain ⟨⟨n, between⟩, number, content⟩ := bind_eq_ok.mp read
  obtain ⟨ps, pieces, rfl⟩ := word64_pieced _ _ _ number
  simp only at content
  split at content
  next length =>
    split at content
    next s' decoded =>
      cases content
      have split := List.take_append_drop n.toNat between
      rw [Utf8.eq_encode_of_decode decoded] at length split
      exact ⟨_, .text pieces length, by simp [octets, split]⟩
    next => cases content
  next => cases content

/-- A map is in the pieces of its pairs. -/
theorem Pieced.map {κ ν : Type} [ByteOrdered κ] {l : Layout κ} {m : Layout ν} (h : l.Pieced)
    (k : m.Pieced) : (Layout.map l m).Pieced :=
  (h.pair k).list.via _ _

end Layout

open Layout

/-! ## Records -/

theorem Extent.pieced : Extent.layout.Pieced :=
  Pieced.via (word64_pieced.pair <| word64_pieced.pair <| word64_pieced.pair <|
    word64_pieced.pair <| word32_pieced.pair word32_pieced) _ _

theorem Inode.pieced : Inode.layout.Pieced :=
  Pieced.via (word64_pieced.pair <| word32_pieced.pair <| word32_pieced.pair <|
    word32_pieced.pair <| word64_pieced.pair <| word64_pieced.pair <| signed64_pieced.pair <|
    signed64_pieced.pair <| signed64_pieced.pair <| bytes_pieced.pair <| word32_pieced.pair <|
    word32_pieced.pair Extent.pieced.list) _ _

theorem Dentry.pieced : Dentry.layout.Pieced :=
  Pieced.via (word64_pieced.pair <| text_pieced.pair <| word64_pieced.pair word32_pieced) _ _

theorem Attributes.pieced : Attributes.layout.Pieced :=
  Pieced.via (word64_pieced.pair <| bytes_pieced.map bytes_pieced) _ _

theorem Part.pieced : Part.layout.Pieced :=
  Pieced.via (word16_pieced.pair <| signed64_pieced.pair <| text_pieced.pair <|
    word64_pieced.pair word64_pieced) _ _

theorem Upload.pieced : Upload.layout.Pieced :=
  Pieced.via (text_pieced.pair <| text_pieced.pair <| signed64_pieced.pair <|
    Part.pieced.list.pair <| text_pieced.map text_pieced) _ _

namespace Collection

/-- Whatever the collection, what is read of its records is in pieces. -/
theorem layout_pieced (c : Collection) : c.layout.Pieced := by
  cases c with
  | inode => exact Inode.pieced
  | dentry => exact Dentry.pieced
  | attributes => exact Attributes.pieced
  | upload => exact Upload.pieced

variable {c : Collection} {r : c.Record} {ps : List Piece}

/-- Octets that end inside the pieces of a record fail with the fault of the piece they end in. -/
theorem decode_cut (pieces : c.layout.InPieces r ps) {short : Bytes} {p : Piece}
    (ends : Piece.EndsIn ps short p) : c.decode short = .error (.decode c p.fault) := by
  rw [decode, Layout.decode, pieces.cut ends]
  rfl

/-- Octets behind the pieces of a record are left over. -/
theorem decode_leftOver (pieces : c.layout.InPieces r ps) {more : Bytes} (some : more ≠ []) :
    c.decode (Piece.join ps ++ more) = .error (.decode c .leftOver) := by
  rw [decode, Layout.decode, pieces.read more]
  cases more with
  | nil => exact absurd rfl some
  | cons b more => rfl

end Collection

/-- **A record ends with its octets.** Octets that are read as a record are a sequence of pieces.
Whatever is short of them breaks off inside a piece, and is refused for that: inside a number for
an end of the input, inside a text for a length past the end, in both cases as a failed read.
Whatever goes on behind them is refused for what is left over. So the octets that are read as
records of a collection do not begin each other. -/
theorem record_ends_with_octets {c : Collection} {bs : Bytes} {r : c.Record}
    (read : c.decode bs = .ok r) :
    (∃ ps, c.layout.InPieces r ps ∧ Piece.join ps = bs ∧
      ∀ short, short <+: bs → short ≠ bs → ∃ p, Piece.EndsIn ps short p ∧
        c.decode short = .error (.decode c p.fault) ∧
        (StoreError.decode c p.fault).cause? = some s!"io error: {p.shortage}") ∧
      (∀ more, more ≠ [] → c.decode (bs ++ more) = .error (.decode c .leftOver)) ∧
      ∀ other r', c.decode other = .ok r' → bs <+: other → other = bs := by
  obtain ⟨ps, pieces, whole⟩ :=
    c.layout_pieced _ _ _ (decode_eq_ok_iff.mp (Collection.decode_eq_ok_iff.mp read))
  rw [List.append_nil] at whole
  subst whole
  have longer : ∀ more, more ≠ [] →
      c.decode (Piece.join ps ++ more) = .error (.decode c .leftOver) :=
    fun _ some => Collection.decode_leftOver pieces some
  refine ⟨⟨ps, pieces, rfl, ?_⟩, longer, ?_⟩
  · intro short front different
    obtain ⟨p, ends⟩ := Piece.exists_endsIn front different
    exact ⟨p, ends, Collection.decode_cut pieces ends, p.cause_fault c⟩
  · rintro other r' again ⟨more, rfl⟩
    cases more with
    | nil => exact List.append_nil _
    | cons b more =>
      rw [longer _ (List.cons_ne_nil _ _)] at again
      cases again

/-- The name of this entry begins at the seventeenth octet; its length stands before it. -/
theorem record_ends_with_octets_of_entry :
    let d : Dentry := { parent := 1, name := "ab", inode := 2, mode := 0 }
    let bs := Collection.dentry.encode d
    Collection.dentry.decode bs = .ok d ∧
      Collection.dentry.decode (bs.take 15) = .error (.decode .dentry .endOfInput) ∧
      Collection.dentry.decode (bs.take 17) = .error (.decode .dentry .textPastEnd) ∧
      Collection.dentry.decode (bs ++ [0]) = .error (.decode .dentry .leftOver) := by
  intro d bs
  have read : Collection.dentry.decode bs = .ok d :=
    Collection.decode_encode (show Text.Fits "ab" by unfold Text.Fits; decide)
  obtain ⟨-, longer, -⟩ := record_ends_with_octets read
  have octets : bs = [1, 0, 0, 0, 0, 0, 0, 0, 2, 0, 0, 0, 0, 0, 0, 0, 97, 98,
      2, 0, 0, 0, 0, 0, 0, 0, 0, 0, 0, 0] := by
    decide +kernel
  refine ⟨read, ?_, ?_, longer [0] (List.cons_ne_nil _ _)⟩
  · rw [octets]
    rfl
  · rw [octets]
    rfl

end FileCatalog
