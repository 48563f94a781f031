import FileCatalog.Bytes

/-!
# UTF-8

`Utf8.encode` gives the octets of a text and `Utf8.decode` reads them back. `decode` accepts
exactly the encodings of texts; what it refuses it describes by a `Fault`, which says where the
valid part ends and what stands there:

- `ends`: the octets from there on begin a character and stop before its last octet;
- `invalid n`: the first `n` octets from there on begin no character.

Of a faulty character the longest part that could begin one is counted, and at least one octet.
-/

namespace FileCatalog.Utf8

/-- The octets of a text. -/
def encode (s : String) : Bytes := s.toByteArray.data.toList

/-- Why octets are no text: the number of valid octets before the fault, and what follows them. -/
inductive Fault where
  /-- A character begins at the place and the octets end inside it. -/
  | ends (index : Nat)
  /-- `length` octets at the place, from one to three, belong to no character. -/
  | invalid (length index : Nat)
  deriving DecidableEq, Repr

def Fault.message : Fault → String
  | .ends index => s!"incomplete utf-8 byte sequence from index {index}"
  | .invalid length index => s!"invalid utf-8 sequence of {length} bytes from index {index}"

/-! ## Finding the fault -/

/-- An octet that continues a character. -/
def isTail (b : UInt8) : Bool := 0x80 ≤ b && b ≤ 0xBF

/-- The second octets that may follow the first octet of a three-octet character. -/
def isSecondOfThree (first second : UInt8) : Bool :=
  if first == 0xE0 then 0xA0 ≤ second && second ≤ 0xBF
  else if first == 0xED then 0x80 ≤ second && second ≤ 0x9F
  else isTail second

/-- The second octets that may follow the first octet of a four-octet character. -/
def isSecondOfFour (first second : UInt8) : Bool :=
  if first == 0xF0 then 0x90 ≤ second && second ≤ 0xBF
  else if first == 0xF4 then 0x80 ≤ second && second ≤ 0x8F
  else isTail second

/-- How many octets the character that begins with this octet has; none begins with any other. -/
def width? (first : UInt8) : Option Nat :=
  if first < 0x80 then some 1
  else if 0xC2 ≤ first && first ≤ 0xDF then some 2
  else if 0xE0 ≤ first && first ≤ 0xEF then some 3
  else if 0xF0 ≤ first && first ≤ 0xF4 then some 4
  else none

/-- The first fault in octets that begin at `index`, if there is one. -/
def faultFrom? (index : Nat) : Bytes → Option Fault
  | [] => none
  | a :: rest =>
    match width? a with
    | none => some (.invalid 1 index)
    | some 1 => faultFrom? (index + 1) rest
    | some 2 =>
      match rest with
      | [] => some (.ends index)
      | b :: rest =>
        if isTail b then faultFrom? (index + 2) rest else some (.invalid 1 index)
    | some 3 =>
      match rest with
      | [] => some (.ends index)
      | b :: rest =>
        if isSecondOfThree a b then
          match rest with
          | [] => some (.ends index)
          | c :: rest =>
            if isTail c then faultFrom? (index + 3) rest else some (.invalid 2 index)
        else some (.invalid 1 index)
    | some _ =>
      match rest with
      | [] => some (.ends index)
      | b :: rest =>
        if isSecondOfFour a b then
          match rest with
          | [] => some (.ends index)
          | c :: rest =>
            if isTail c then
              match rest with
              | [] => some (.ends index)
              | d :: rest =>
                if isTail d then faultFrom? (index + 4) rest else some (.invalid 3 index)
            else some (.invalid 2 index)
        else some (.invalid 1 index)

/-- The first fault in octets that are no text. -/
def fault (bs : Bytes) : Fault := (faultFrom? 0 bs).getD (.ends bs.length)

/-! ## Reading -/

/-- The text whose octets are given. -/
def decode (bs : Bytes) : Except Fault String :=
  let octets : ByteArray := ⟨bs.toArray⟩
  if valid : octets.IsValidUTF8 then .ok ⟨octets, valid⟩ else .error (fault bs)

@[simp] theorem decode_encode (s : String) : decode (encode s) = .ok s := by
  have valid : s.toByteArray.IsValidUTF8 := s.isValidUTF8
  simp [decode, encode, valid]

/-- Only the octets of a text are read as that text. -/
theorem eq_encode_of_decode {bs : Bytes} {s : String} (h : decode bs = .ok s) :
    bs = encode s := by
  unfold decode at h
  simp only at h
  split at h
  · cases h; simp [encode]
  · cases h

theorem encode_injective {s t : String} (h : encode s = encode t) : s = t := by
  have := decode_encode s
  rw [h, decode_encode] at this
  exact (Except.ok.inj this).symm

end FileCatalog.Utf8
