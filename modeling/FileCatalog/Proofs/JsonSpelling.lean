import FileCatalog.Proofs.JsonText
import Mathlib.Data.List.Forall2

/-!
# The rules of JSON

`Json.Spelling` states the rules by which a value is spelled, apart from the program that writes it:
numbers in digits, texts between quotes, items and members between brackets with commas in between.
Of the ways to spell a character it allows one: a letter behind a backslash where there is one for
it, four hexadecimal digits for the other controls, and the character itself otherwise. Where blanks
and new lines stand is told by what sets the parts of a level apart: nothing in `Json.OnOneLine`, a
new line and two blanks for each level in `Json.OverLines`.

`Json.spelling_iff` says that what is written whole is exactly what these rules allow. So each value
has at most one spelling of either kind, and it has one if all keys in it are texts.
-/

namespace FileCatalog.Json

/-! ## Characters and texts -/

/-- The characters that have a letter of their own behind a backslash. -/
def letters : List (Char × Char) :=
  [('"', '"'), ('\\', '\\'), ('\x08', 'b'), ('\x0c', 'f'), ('\n', 'n'), ('\r', 'r'), ('\t', 't')]

/-- How a character is spelled between quotes. -/
inductive CharSpelling (c : Char) : List Char → Prop
  | letter {l : Char} (named : letters.lookup c = some l) : CharSpelling c ['\\', l]
  | digits (unnamed : letters.lookup c = none) (control : c.toNat < 0x20) :
      CharSpelling c ('\\' :: 'u' :: (Nat.toDigits 16 c.toNat).leftpad 4 '0')
  | itself (unnamed : letters.lookup c = none) (printable : 0x20 ≤ c.toNat) : CharSpelling c [c]

/-- Each character is spelled in turn, between quotes. -/
def TextSpelling (s : String) (t : List Char) : Prop :=
  ∃ pieces, List.Forall₂ CharSpelling s.toList pieces ∧ t = '"' :: pieces.flatten ++ ['"']

private theorem fourDigits_eq (c : Char) (control : c.toNat < 0x20) :
    fourDigits c = (Nat.toDigits 16 c.toNat).leftpad 4 '0' := by
  have small : ∀ n < 0x20, ['0', '0', Nat.digitChar (n / 16), Nat.digitChar (n % 16)] =
      (Nat.toDigits 16 n).leftpad 4 '0' := by
    decide
  exact small c.toNat control

theorem charSpelling_escapedChar (c : Char) : CharSpelling c (escapedChar c) := by
  unfold escapedChar
  split
  case h_8 quote backslash backspace feed line back tab =>
    -- None of the characters that have a letter.
    have unnamed : letters.lookup c = none := by
      rw [List.lookup_eq_none_iff]
      simp only [letters, List.forall_mem_cons, bne_iff_ne]
      exact ⟨quote, backslash, backspace, feed, line, back, tab, nofun⟩
    split
    · next control =>
      rw [fourDigits_eq c control]
      exact .digits unnamed control
    · next printable => exact .itself unnamed (Nat.le_of_not_lt printable)
  all_goals exact .letter rfl

theorem CharSpelling.unique {c : Char} {t t' : List Char} (spelled : CharSpelling c t)
    (spelled' : CharSpelling c t') : t = t' := by
  cases spelled with
  | letter named =>
    cases spelled' with
    | letter named' => rw [Option.some.inj (named.symm.trans named')]
    | digits unnamed => exact absurd (named.symm.trans unnamed) (Option.some_ne_none _)
    | itself unnamed => exact absurd (named.symm.trans unnamed) (Option.some_ne_none _)
  | digits unnamed control =>
    cases spelled' with
    | letter named => exact absurd (named.symm.trans unnamed) (Option.some_ne_none _)
    | digits => rfl
    | itself _ printable => omega
  | itself unnamed printable =>
    cases spelled' with
    | letter named => exact absurd (named.symm.trans unnamed) (Option.some_ne_none _)
    | digits _ control => omega
    | itself => rfl

/-- A text has the spelling that is written of it, and no other. -/
theorem textSpelling_iff {s : String} {t : List Char} : TextSpelling s t ↔ t = quoted s := by
  have pieces_iff : ∀ (cs : List Char) (pieces : List (List Char)),
      List.Forall₂ CharSpelling cs pieces ↔ pieces = cs.map escapedChar := by
    intro cs pieces
    constructor
    · intro each
      induction each with
      | nil => rfl
      | cons spelled _ ih =>
        rw [List.map_cons, ih, spelled.unique (charSpelling_escapedChar _)]
    · rintro rfl
      rw [List.forall₂_map_right_iff, List.forall₂_same]
      exact fun c _ => charSpelling_escapedChar c
  constructor
  · rintro ⟨pieces, each, rfl⟩
    rw [(pieces_iff _ _).mp each, quoted, List.flatMap]
  · rintro rfl
    exact ⟨_, (pieces_iff _ _).mpr rfl, rfl⟩

/-! ## Values -/

section Values

variable (gap : Nat → List Char) (colon : List Char)

mutual

/-- The text spells the value, which begins at a level. Behind the opening bracket of an array or an
object, behind each comma and before the closing bracket stands the gap of the level. -/
inductive Spelling : Nat → Json → List Char → Prop
  | natural (level n : Nat) : Spelling level (.number n) (Nat.toDigits 10 n)
  | negative (level n : Nat) :
      Spelling level (.number (Int.negSucc n)) ('-' :: Nat.toDigits 10 (n + 1))
  | text {level : Nat} {s : String} {t : List Char} (spelled : TextSpelling s t) :
      Spelling level (.text s) t
  | noItems (level : Nat) : Spelling level (.array []) ['[', ']']
  | array {level : Nat} {items : List Json} {texts : List (List Char)} (nonempty : items ≠ [])
      (each : ItemSpellings (level + 1) items texts) :
      Spelling level (.array items)
        ('[' :: gap (level + 1) ++ (',' :: gap (level + 1)).intercalate texts ++
          gap level ++ [']'])
  | noMembers (level : Nat) : Spelling level (.object []) ['\x7b', '\x7d']
  | object {level : Nat} {members : List (Json × Json)} {texts : List (List Char)}
      (nonempty : members ≠ []) (each : MemberSpellings (level + 1) members texts) :
      Spelling level (.object members)
        ('\x7b' :: gap (level + 1) ++ (',' :: gap (level + 1)).intercalate texts ++
          gap level ++ ['\x7d'])

/-- The texts spell the items of an array, one each. -/
inductive ItemSpellings : Nat → List Json → List (List Char) → Prop
  | nil (level : Nat) : ItemSpellings level [] []
  | cons {level : Nat} {item : Json} {items : List Json} {t : List Char} {texts : List (List Char)}
      (first : Spelling level item t) (others : ItemSpellings level items texts) :
      ItemSpellings level (item :: items) (t :: texts)

/-- The texts spell the members of an object, one each: the key, a colon and the value. -/
inductive MemberSpellings : Nat → List (Json × Json) → List (List Char) → Prop
  | nil (level : Nat) : MemberSpellings level [] []
  | cons {level : Nat} {s : String} {value : Json} {members : List (Json × Json)}
      {key t : List Char} {texts : List (List Char)} (name : TextSpelling s key)
      (first : Spelling level value t) (others : MemberSpellings level members texts) :
      MemberSpellings level ((.text s, value) :: members) ((key ++ colon ++ t) :: texts)

end

end Values

/-- The text spells the value on one line, without blanks. -/
def OnOneLine (v : Json) (t : List Char) : Prop := Spelling (fun _ => []) [':'] 0 v t

/-- The text spells the value over lines: each item and each member stands on a line of its own,
behind two blanks for each level, and a blank stands behind each colon. -/
def OverLines (v : Json) (t : List Char) : Prop :=
  Spelling (fun level => '\n' :: List.replicate (2 * level) ' ') [':', ' '] 0 v t

/-! ## What is written -/

section Written

variable {style : Style}

private theorem chars_append (cs ds : List Char) :
    Writing.chars cs ++ Writing.chars ds = Writing.chars (cs ++ ds) := rfl

private theorem string_eq (s : String) : Writing.string s = Writing.chars s.toList := rfl

/-- The first part stands by itself, and each later one behind a comma and a gap. -/
private theorem intercalate_cons (gap t : List Char) (texts : List (List Char)) :
    (',' :: gap).intercalate (t :: texts) = t ++ texts.flatMap (',' :: gap ++ ·) := by
  induction texts generalizing t with
  | nil => simp
  | cons t' texts ih =>
    rw [List.intercalate_cons_cons, ih, List.flatMap_cons, List.append_assoc, List.append_assoc]

private theorem writeMember_eq {level : Nat} {s : String} {value : Json} {key t : List Char}
    (name : TextSpelling s key) (written : write style level value = .chars t) :
    writeMember style level (.text s, value) = .chars (key ++ style.colon ++ t) := by
  rw [writeMember, writeKey, written, textSpelling_iff.mp name, chars_append, chars_append]

mutual

/-- What is spelled by the rules is what is written. -/
theorem Spelling.write_eq : ∀ {level : Nat} {v : Json} {t : List Char},
    Spelling style.gap style.colon level v t → write style level v = .chars t
  | _, _, _, .natural _ n => by
    rw [write, string_eq, Int.toString_eq_repr, Int.repr_eq_if, if_pos (Int.natCast_nonneg n),
      Int.toNat_natCast, Nat.toList_repr]
  | _, _, _, .negative _ n => by
    have negative : ¬ 0 ≤ Int.negSucc n := Int.not_le.mpr (Int.negSucc_lt_zero n)
    rw [write, string_eq, Int.toString_eq_repr, Int.repr_eq_if, if_neg negative, Int.neg_negSucc,
      String.toList_append, Nat.toList_repr]
    rfl
  | _, _, _, .text spelled => by
    rw [write, textSpelling_iff.mp spelled]
  | _, _, _, .noItems _ => by
    rw [write]
    rfl
  | _, _, _, .array nonempty (.nil _) => absurd rfl nonempty
  | _, _, _, .array _ (.cons first others) => by
    rw [write, first.write_eq, others.writeItems_eq, intercalate_cons]
    simp [chars_append]
  | _, _, _, .noMembers _ => by
    rw [write]
    rfl
  | _, _, _, .object nonempty (.nil _) => absurd rfl nonempty
  | _, _, _, .object _ (.cons name first others) => by
    rw [write, writeMember_eq name first.write_eq, others.writeMembers_eq, intercalate_cons]
    simp [chars_append]

/-- So are the items of an array after the first, each behind a comma. -/
theorem ItemSpellings.writeItems_eq : ∀ {level : Nat} {items : List Json}
    {texts : List (List Char)}, ItemSpellings style.gap style.colon level items texts →
      writeItems style level items = .chars (texts.flatMap (',' :: style.gap level ++ ·))
  | _, _, _, .nil _ => by
    rw [writeItems]
    rfl
  | _, _, _, .cons first others => by
    rw [writeItems, first.write_eq, others.writeItems_eq]
    simp [chars_append]

/-- So are the members of an object after the first. -/
theorem MemberSpellings.writeMembers_eq : ∀ {level : Nat} {members : List (Json × Json)}
    {texts : List (List Char)}, MemberSpellings style.gap style.colon level members texts →
      writeMembers style level members = .chars (texts.flatMap (',' :: style.gap level ++ ·))
  | _, _, _, .nil _ => by
    rw [writeMembers]
    rfl
  | _, _, _, .cons name first others => by
    rw [writeMembers, writeMember_eq name first.write_eq, others.writeMembers_eq]
    simp [chars_append]

end

end Written

section Existence

variable (gap : Nat → List Char) (colon : List Char)

mutual

/-- A value is spelled in some way if all keys in it are texts. -/
theorem exists_spelling : ∀ (level : Nat) (v : Json), v.keysAreTexts = true →
    ∃ t, Spelling gap colon level v t
  | level, .number n, _ => by
    cases n with
    | ofNat n => exact ⟨_, .natural level n⟩
    | negSucc n => exact ⟨_, .negative level n⟩
  | _, .text s, _ => ⟨_, .text (textSpelling_iff.mpr rfl)⟩
  | level, .array [], _ => ⟨_, .noItems level⟩
  | level, .array (item :: items), keys => by
    rw [keysAreTexts] at keys
    obtain ⟨texts, each⟩ := exists_itemSpellings (level + 1) (item :: items) keys
    exact ⟨_, .array (List.cons_ne_nil item items) each⟩
  | level, .object [], _ => ⟨_, .noMembers level⟩
  | level, .object (member :: members), keys => by
    rw [keysAreTexts] at keys
    obtain ⟨texts, each⟩ := exists_memberSpellings (level + 1) (member :: members) keys
    exact ⟨_, .object (List.cons_ne_nil member members) each⟩

/-- So are the items of an array. -/
theorem exists_itemSpellings : ∀ (level : Nat) (items : List Json), itemsHaveTexts items = true →
    ∃ texts, ItemSpellings gap colon level items texts
  | level, [], _ => ⟨[], .nil level⟩
  | level, item :: items, keys => by
    rw [itemsHaveTexts, Bool.and_eq_true] at keys
    obtain ⟨t, first⟩ := exists_spelling level item keys.1
    obtain ⟨texts, others⟩ := exists_itemSpellings level items keys.2
    exact ⟨_, .cons first others⟩

/-- So are the members of an object, whose own keys must be texts. -/
theorem exists_memberSpellings : ∀ (level : Nat) (members : List (Json × Json)),
    membersHaveTexts members = true → ∃ texts, MemberSpellings gap colon level members texts
  | level, [], _ => ⟨[], .nil level⟩
  | level, (key, value) :: members, keys => by
    rw [membersHaveTexts, memberHasTexts, Bool.and_eq_true, Bool.and_eq_true] at keys
    obtain ⟨t, first⟩ := exists_spelling level value keys.1.2
    obtain ⟨texts, others⟩ := exists_memberSpellings level members keys.2
    cases key with
    | text s => exact ⟨_, .cons (textSpelling_iff.mpr rfl) first others⟩
    | number | array | object => exact absurd keys.1.1 Bool.false_ne_true

end

end Existence

/-- What is written whole is what the rules of spelling allow, with the gaps and the colon of the
style. -/
theorem spelling_iff {style : Style} {level : Nat} {v : Json} {t : List Char} :
    Spelling style.gap style.colon level v t ↔ write style level v = ⟨t, true⟩ := by
  constructor
  · exact Spelling.write_eq
  · intro written
    have whole : (write style level v).isWhole = true := by rw [written]
    rw [write_isWhole] at whole
    obtain ⟨t', spelled⟩ := exists_spelling style.gap style.colon level v whole
    have same : t' = t := congrArg Writing.text (spelled.write_eq.symm.trans written)
    rw [← same]
    exact spelled

/-- On one line a value has the spelling that is written of it, and no other. -/
theorem onOneLine_iff {v : Json} {t : List Char} : v.OnOneLine t ↔ v.compact = ⟨t, true⟩ := by
  show Spelling Style.line.gap Style.line.colon 0 v t ↔ write .line 0 v = ⟨t, true⟩
  exact spelling_iff

/-- Over lines a value has the spelling that is written of it, and no other. -/
theorem overLines_iff {v : Json} {t : List Char} : v.OverLines t ↔ v.spread = ⟨t, true⟩ := by
  show Spelling Style.lines.gap Style.lines.colon 0 v t ↔ write .lines 0 v = ⟨t, true⟩
  exact spelling_iff

end FileCatalog.Json
