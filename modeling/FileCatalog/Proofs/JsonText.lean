import FileCatalog.Record.Json

/-!
# What is written of a JSON value

A value is written whole exactly when all keys in it are texts (`Json.write_isWhole`), on one line
and over lines alike. Whatever was written of it on one line stands on one line
(`Json.compact_isLine`). Both go through the value as the writing does, with one case for each of
its parts.

The records of three collections have such keys by their form. Those of attributes have them only
when there are none (`Collection.keysAreTexts_toJson`), since the names of attributes are written as
arrays of octets.
-/

namespace FileCatalog

namespace Writing

variable {a b : Writing}

@[simp] theorem isWhole_chars (cs : List Char) : (chars cs).isWhole = true := rfl

@[simp] theorem isWhole_string (s : String) : (string s).isWhole = true := rfl

/-- One writing after another is whole if both are. -/
@[simp] theorem isWhole_append : (a ++ b).isWhole = (a.isWhole && b.isWhole) := by
  show (a.followedBy b).isWhole = _
  unfold followedBy
  by_cases whole : a.isWhole = true
  · rw [if_pos whole, whole, Bool.true_and]
  · have broken : a.isWhole = false := Bool.not_eq_true _ ▸ whole
    rw [if_neg whole, broken, Bool.false_and]

/-- What is written after a writing that broke off is lost. -/
theorem text_append : (a ++ b).text = if a.isWhole then a.text ++ b.text else a.text := by
  show (a.followedBy b).text = _
  unfold followedBy
  split
  · rfl
  · rfl

/-- The text has no new line in it. -/
def IsLine (w : Writing) : Prop := '\n' ∉ w.text

/-- One line after another stands on one line. -/
theorem IsLine.append (ha : a.IsLine) (hb : b.IsLine) : (a ++ b).IsLine := by
  rw [IsLine, text_append]
  split
  · rw [List.mem_append]
    exact fun h => h.elim ha hb
  · exact ha

end Writing

namespace Json

/-! ## Parts of a text -/

/-- A number is written in digits, behind a sign if it is negative. -/
theorem isLine_number (n : Int) : (Writing.string (toString n)).IsLine := by
  have digits : ∀ m : Nat, '\n' ∉ m.repr.toList := by
    intro m member
    rw [Nat.toList_repr] at member
    have digit := Nat.isDigit_of_mem_toDigits (by decide) (by decide) member
    exact absurd digit (by decide)
  show '\n' ∉ (toString n).toList
  rw [Int.toString_eq_repr, Int.repr_eq_if]
  split
  · exact digits _
  · rw [String.toList_append, List.mem_append]
    exact fun h => h.elim (by decide) (digits _)

/-- A hexadecimal digit is no new line. -/
private theorem newline_notMem_fourDigits (c : Char) (small : c.toNat < 0x20) :
    '\n' ∉ fourDigits c := by
  have digits : ∀ m < 0x20, '\n' ∉ ['0', '0', Nat.digitChar (m / 16), Nat.digitChar (m % 16)] := by
    decide
  exact digits c.toNat small

/-- The new line is among the characters that are escaped. -/
theorem newline_notMem_escapedChar (c : Char) : '\n' ∉ escapedChar c := by
  unfold escapedChar
  split
  · decide
  · decide
  · decide
  · decide
  · decide
  · decide
  · decide
  · split
    · next small =>
      rw [List.mem_append]
      exact fun h => h.elim (by decide) (newline_notMem_fourDigits c small)
    · next printable =>
      rw [List.mem_singleton]
      rintro rfl
      exact printable (by decide)

/-- A text between quotes stands on one line, whatever characters it has. -/
theorem isLine_quoted (s : String) : (Writing.chars (quoted s)).IsLine := by
  show '\n' ∉ '"' :: s.toList.flatMap escapedChar ++ ['"']
  rw [List.mem_append, List.mem_cons, List.mem_flatMap]
  rintro ((quote | ⟨c, -, escaped⟩) | quote)
  · exact absurd quote (by decide)
  · exact newline_notMem_escapedChar c escaped
  · exact absurd quote (by decide)

/-- Brackets, commas and colons stand on the line. -/
theorem isLine_chars (cs : List Char) (plain : '\n' ∉ cs) : (Writing.chars cs).IsLine := plain

/-- A key stands on one line, as far as it is written at all. -/
theorem isLine_writeKey (key : Json) : (writeKey key).IsLine := by
  cases key with
  | text s => exact isLine_quoted s
  | number | array | object => exact List.not_mem_nil

/-- The value is a text. -/
def isText : Json → Bool
  | .text _ => true
  | _ => false

/-- A key is written whole if it is a text. -/
@[simp] theorem isWhole_writeKey (key : Json) : (writeKey key).isWhole = key.isText := by
  cases key with
  | text | number | array | object => rfl

/-! ## Values -/

mutual

/-- All keys in the value are texts. -/
def keysAreTexts : Json → Bool
  | .number _ | .text _ => true
  | .array items => itemsHaveTexts items
  | .object members => membersHaveTexts members

/-- All keys in the items are texts. -/
def itemsHaveTexts : List Json → Bool
  | [] => true
  | item :: items => keysAreTexts item && itemsHaveTexts items

/-- The key of the member is a text, and so are all keys in its value. -/
def memberHasTexts : Json × Json → Bool
  | (key, value) => key.isText && keysAreTexts value

/-- The keys of the members are texts, and so are all keys in their values. -/
def membersHaveTexts : List (Json × Json) → Bool
  | [] => true
  | member :: members => memberHasTexts member && membersHaveTexts members

end

mutual

/-- A value is written whole exactly when all keys in it are texts, in whatever style. -/
theorem write_isWhole (style : Style) : ∀ (level : Nat) (v : Json),
    (write style level v).isWhole = v.keysAreTexts
  | _, .number _ | _, .text _ => by rw [write, keysAreTexts]; rfl
  | _, .array [] => by rw [write, keysAreTexts, itemsHaveTexts]; rfl
  | level, .array (item :: items) => by
    rw [write, keysAreTexts, itemsHaveTexts]
    simp only [Writing.isWhole_append, Writing.isWhole_chars, Bool.true_and, Bool.and_true,
      write_isWhole style (level + 1) item, writeItems_isWhole style (level + 1) items]
  | _, .object [] => by rw [write, keysAreTexts, membersHaveTexts]; rfl
  | level, .object (member :: members) => by
    rw [write, keysAreTexts, membersHaveTexts]
    simp only [Writing.isWhole_append, Writing.isWhole_chars, Bool.true_and, Bool.and_true,
      writeMember_isWhole style (level + 1) member, writeMembers_isWhole style (level + 1) members]

/-- So are the items of an array after the first. -/
theorem writeItems_isWhole (style : Style) : ∀ (level : Nat) (items : List Json),
    (writeItems style level items).isWhole = itemsHaveTexts items
  | _, [] => by rw [writeItems, itemsHaveTexts]; rfl
  | level, item :: items => by
    rw [writeItems, itemsHaveTexts]
    simp only [Writing.isWhole_append, Writing.isWhole_chars, Bool.true_and,
      write_isWhole style level item, writeItems_isWhole style level items]

/-- So is a member, if its key is a text too. -/
theorem writeMember_isWhole (style : Style) : ∀ (level : Nat) (member : Json × Json),
    (writeMember style level member).isWhole = memberHasTexts member
  | level, (key, value) => by
    rw [writeMember, memberHasTexts]
    simp only [Writing.isWhole_append, Writing.isWhole_chars, Bool.and_true, isWhole_writeKey,
      write_isWhole style level value]

/-- So are the members of an object after the first. -/
theorem writeMembers_isWhole (style : Style) : ∀ (level : Nat) (members : List (Json × Json)),
    (writeMembers style level members).isWhole = membersHaveTexts members
  | _, [] => by rw [writeMembers, membersHaveTexts]; rfl
  | level, member :: members => by
    rw [writeMembers, membersHaveTexts]
    simp only [Writing.isWhole_append, Writing.isWhole_chars, Bool.true_and,
      writeMember_isWhole style level member, writeMembers_isWhole style level members]

end

/-- On one line a value is written whole exactly when all keys in it are texts. -/
theorem compact_isWhole (v : Json) : v.compact.isWhole = v.keysAreTexts := write_isWhole .line 0 v

/-- Over lines it is written whole in the same cases. -/
theorem spread_isWhole (v : Json) : v.spread.isWhole = v.keysAreTexts := write_isWhole .lines 0 v

mutual

/-- The style of one line puts no new line anywhere. -/
theorem write_isLine : ∀ (level : Nat) (v : Json), (write .line level v).IsLine
  | _, .number n => isLine_number n
  | _, .text s => isLine_quoted s
  | _, .array [] => by
    show '\n' ∉ "[]".toList
    decide
  | level, .array (item :: items) => by
    have first := (isLine_chars ['['] (by decide)).append (write_isLine (level + 1) item)
    have all := first.append (writeItems_isLine (level + 1) items)
    exact all.append (isLine_chars [']'] (by decide))
  | _, .object [] => by
    show '\n' ∉ "\x7b\x7d".toList
    decide
  | level, .object (member :: members) => by
    have first := (isLine_chars ['\x7b'] (by decide)).append (writeMember_isLine (level + 1) member)
    have all := first.append (writeMembers_isLine (level + 1) members)
    exact all.append (isLine_chars ['\x7d'] (by decide))

/-- Commas are no new lines. -/
theorem writeItems_isLine : ∀ (level : Nat) (items : List Json),
    (writeItems .line level items).IsLine
  | _, [] => List.not_mem_nil
  | level, item :: items => by
    have first := (isLine_chars [','] (by decide)).append (write_isLine level item)
    exact first.append (writeItems_isLine level items)

/-- The colon is no new line, and a key that cannot be written is nothing at all. -/
theorem writeMember_isLine : ∀ (level : Nat) (member : Json × Json),
    (writeMember .line level member).IsLine
  | level, (key, value) => by
    have name := (isLine_writeKey key).append (isLine_chars [':'] (by decide))
    exact name.append (write_isLine level value)

/-- Commas are no new lines between members either. -/
theorem writeMembers_isLine : ∀ (level : Nat) (members : List (Json × Json)),
    (writeMembers .line level members).IsLine
  | _, [] => List.not_mem_nil
  | level, member :: members => by
    have first := (isLine_chars [','] (by decide)).append (writeMember_isLine level member)
    exact first.append (writeMembers_isLine level members)

end

/-- Whatever was written of a value on one line stands on one line. -/
theorem compact_isLine (v : Json) : v.compact.IsLine := write_isLine 0 v

/-! ## Parts of a value -/

/-- For items taken one by one. -/
theorem itemsHaveTexts_eq_all (items : List Json) :
    itemsHaveTexts items = items.all keysAreTexts := by
  induction items with
  | nil => rfl
  | cons item items ih => rw [itemsHaveTexts, List.all_cons, ih]

/-- For members taken one by one. -/
theorem membersHaveTexts_eq_all (members : List (Json × Json)) :
    membersHaveTexts members = members.all fun m => m.1.isText && m.2.keysAreTexts := by
  induction members with
  | nil => rfl
  | cons member members ih => rw [membersHaveTexts, List.all_cons, ih, memberHasTexts]

@[simp] theorem keysAreTexts_array (items : List Json) :
    (Json.array items).keysAreTexts = items.all keysAreTexts := by
  rw [keysAreTexts, itemsHaveTexts_eq_all]

@[simp] theorem keysAreTexts_object (members : List (Json × Json)) :
    (Json.object members).keysAreTexts =
      members.all fun m => m.1.isText && m.2.keysAreTexts := by
  rw [keysAreTexts, membersHaveTexts_eq_all]

/-- The names of fields are texts, so it depends on the values. -/
@[simp] theorem keysAreTexts_fields (members : List (String × Json)) :
    (fields members).keysAreTexts = members.all fun m => m.2.keysAreTexts := by
  rw [fields, keysAreTexts_object, List.all_map]
  rfl

@[simp] theorem keysAreTexts_nat (n : Nat) : (nat n).keysAreTexts = true := rfl

/-- Octets have no keys in them. -/
@[simp] theorem keysAreTexts_octets (bs : Bytes) : (octets bs).keysAreTexts = true := by
  rw [octets, keysAreTexts_array, List.all_map, List.all_eq_true]
  exact fun _ _ => rfl

end Json

/-! ## Records -/

open Json

/-- All keys in an inode are names of fields. -/
theorem Inode.keysAreTexts_toJson (i : Inode) : i.toJson.keysAreTexts = true := by
  have extents : (i.extents.map Extent.toJson).all keysAreTexts = true := by
    rw [List.all_map, List.all_eq_true]
    exact fun _ _ => rfl
  simp only [toJson, keysAreTexts_fields, List.all_cons, List.all_nil, keysAreTexts_array,
    keysAreTexts_octets, keysAreTexts_nat, extents, Bool.and_true]
  rfl

/-- An inode is written whole over lines. -/
theorem Inode.spread_isWhole (i : Inode) : i.toJson.spread.isWhole = true := by
  rw [Json.spread_isWhole, i.keysAreTexts_toJson]

/-- The keys of the map in an upload are texts themselves. -/
theorem Upload.keysAreTexts_toJson (u : Upload) : u.toJson.keysAreTexts = true := by
  have parts : (u.parts.map Part.toJson).all keysAreTexts = true := by
    rw [List.all_map, List.all_eq_true]
    exact fun _ _ => rfl
  have extend : (u.extend.entries.map fun e => (Json.text e.1, Json.text e.2)).all
      (fun m => m.1.isText && m.2.keysAreTexts) = true := by
    rw [List.all_map, List.all_eq_true]
    exact fun _ _ => rfl
  simp only [toJson, keysAreTexts_fields, List.all_cons, List.all_nil, keysAreTexts_array,
    keysAreTexts_object, parts, extend, Bool.and_true]
  rfl

/-- The name of an attribute is no text, so the record is written whole only without any. -/
theorem Attributes.keysAreTexts_toJson (a : Attributes) :
    a.toJson.keysAreTexts = a.values.entries.isEmpty := by
  simp only [toJson, keysAreTexts_fields, List.all_cons, List.all_nil, keysAreTexts_nat,
    keysAreTexts_object, Bool.true_and, Bool.and_true]
  cases a.values.entries with
  | nil => rfl
  | cons e rest => rfl

/-- The record has no attributes, or is none of attributes. -/
def Collection.HasTextKeys : (c : Collection) → c.Record → Prop
  | .attributes, a => a.values = ∅
  | _, _ => True

/-- A record is written whole on one line unless it has attributes. -/
theorem Collection.compact_isWhole_iff (c : Collection) (r : c.Record) :
    (c.toJson r).compact.isWhole = true ↔ c.HasTextKeys r := by
  rw [compact_isWhole]
  cases c with
  | inode => exact iff_of_true r.keysAreTexts_toJson trivial
  | dentry => exact iff_of_true rfl trivial
  | upload => exact iff_of_true r.keysAreTexts_toJson trivial
  | attributes =>
    show r.toJson.keysAreTexts = true ↔ r.values = ∅
    rw [r.keysAreTexts_toJson, List.isEmpty_iff]
    constructor
    · intro none
      exact OrderedMap.ext none
    · intro none
      rw [none]
      rfl

/-- Of a record with attributes the text ends where the first name would stand. -/
theorem Attributes.compact_text {a : Attributes} (some : a.values ≠ ∅) :
    a.toJson.compact.text =
      "\x7b\"inode\":".toList ++ (toString (a.inode.toNat : Int)).toList ++
        ",\"attrs\":\x7b".toList := by
  -- The map stands one level below the record.
  have values : write .line 1 (.object (a.values.entries.map fun e => (octets e.1, octets e.2))) =
      ⟨['\x7b'], false⟩ := by
    cases entries : a.values.entries with
    | nil => exact absurd (OrderedMap.ext entries) some
    | cons e rest =>
      rw [List.map_cons, write, writeMember]
      rfl
  have first : "\x7b\"inode\":".toList = '\x7b' :: quoted "inode" ++ [':'] := by decide
  have second : ",\"attrs\":\x7b".toList = ',' :: quoted "attrs" ++ [':', '\x7b'] := by decide
  rw [toJson, first, second, fields]
  generalize Json.object (a.values.entries.map fun e => (octets e.1, octets e.2)) = object at values
  simp only [compact, List.map_cons, List.map_nil, write, writeMembers, writeMember, writeKey, nat,
    Nat.zero_add, values, Writing.text_append, Writing.isWhole_append, Writing.isWhole_chars]
  simp [Writing.chars, Writing.string, Style.line]

end FileCatalog
