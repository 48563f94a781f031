import FileCatalog.Toml.Quoted
import FileCatalog.Toml.Tree

/-!
# TOML numbers and moments

Integers fit a signed word of 64 bits and are written in base ten, or without a sign in base
sixteen, eight or two. Other numbers have a fraction, an exponent or both. One that is too large
for a double-precision number is refused when it is positive.

A moment is a day, a time of day, or a day and a time, the last perhaps with its distance from
universal time. Days exist in the calendar, leap years included; a minute may have a second 60.

Digits of numbers may be parted by single underscores.
-/

namespace FileCatalog.Toml.Parser

/-! ## Digits -/

/-- Digits of one kind, parted or not; the underscores are left out. -/
def digitGroup (isDigit : Char → Bool) : Parser (List Char) := do
  let first ← satisfy isDigit
  let rest ← many (satisfy isDigit <|> (char '_' *> satisfy isDigit))
  return first :: rest

/-- The number that digits write in a base. -/
def ofDigits (base : Nat) (digits : List Char) : Nat :=
  digits.foldl (fun sum c => base * sum + (Text.hexValue? c).getD 0) 0

/-- Exactly `n` decimal digits. -/
def decimals (n : Nat) : Parser Nat := fun cs =>
  let digits := cs.take n
  if digits.length = n ∧ digits.all Char.isDigit then some (ofDigits 10 digits, cs.drop n)
  else none

/-- Exactly two decimal digits of a number in bounds. -/
def twoDigits (low high : Nat) : Parser Nat := do
  let n ← decimals 2
  guard (low ≤ n && n ≤ high)
  return n

/-- A sign; true for a minus. -/
def sign : Parser Bool := (do char '-'; return true) <|> (do char '+'; return false)

/-- A sign that may be missing. -/
def signed : Parser Bool := (·.getD false) <$> maybe sign

/-- The digits of a number that begins with zero only if it is zero. -/
def natural : Parser (List Char) :=
  (do
    let first ← satisfy fun c => c.isDigit && c ≠ '0'
    let rest ← many (satisfy Char.isDigit <|> (char '_' *> satisfy Char.isDigit))
    return first :: rest) <|>
  (do char '0'; return ['0'])

/-! ## Integers -/

/-- An integer that fits a signed word of 64 bits. -/
def word (n : Int) : Parser Value := do
  guard (Int64.minValue.toInt ≤ n && n ≤ Int64.maxValue.toInt)
  return .integer n

/-- An integer in a base that letters announce. -/
def based (letters : List Char) (base : Nat) (isDigit : Char → Bool) : Parser Value := do
  literal letters
  let digits ← digitGroup isDigit
  word (ofDigits base digits)

/-- An integer. -/
def integer : Parser Value :=
  based ['0', 'x'] 16 (fun c => (Text.hexValue? c).isSome) <|>
  based ['0', 'o'] 8 (fun c => '0' ≤ c && c ≤ '7') <|>
  based ['0', 'b'] 2 (fun c => c = '0' || c = '1') <|>
  (do
    let negative ← signed
    let digits ← natural
    let n : Int := ofDigits 10 digits
    word (if negative then -n else n))

/-! ## Other numbers -/

/-- The least positive number that rounds to no finite double-precision number. -/
def doubleLimit : Nat := (1 <<< 1024) - (1 <<< 970)

/-- Whether `digits * 10 ^ exponent` reaches the limit of double precision. The number of digits
decides unless it is within one of the limit's. -/
def isTooLarge (digits : Nat) (exponent : Int) : Bool :=
  let length : Int := (Nat.toDigits 10 digits).length + exponent
  if digits = 0 || length < 309 then false
  else if length > 310 then true
  else if exponent < 0 then digits ≥ doubleLimit * Nat.pow 10 exponent.natAbs
  else digits * Nat.pow 10 exponent.natAbs ≥ doubleLimit

/-- An exponent. -/
def exponent : Parser Int := do
  let _ ← satisfy fun c => c = 'e' || c = 'E'
  let negative ← signed
  let digits ← digitGroup Char.isDigit
  let n : Int := ofDigits 10 digits
  return if negative then -n else n

/-- The digits behind the point. -/
def fraction : Parser (List Char) := do
  char '.'
  digitGroup Char.isDigit

/-- A number with a fraction, an exponent or both. -/
def decimal : Parser Value := do
  let negative ← signed
  let whole ← natural
  let (behind, power) ← (do return ([], ← exponent)) <|>
    (do return (← fraction, (← maybe exponent).getD 0))
  let digits := ofDigits 10 (whole ++ behind)
  let power := power - behind.length
  guard (negative || !isTooLarge digits power)
  return .real (.decimal negative digits power)

/-- A number that is written by its name. -/
def named : Parser Value := do
  let negative ← signed
  (do literal ['i', 'n', 'f']; return .real (.infinity negative)) <|>
    (do literal ['n', 'a', 'n']; return .real .notANumber)

/-! ## Moments -/

/-- The number of days in a month. -/
def daysIn (year month : Nat) : Nat :=
  if month = 2 then
    if year % 4 = 0 ∧ (year % 100 ≠ 0 ∨ year % 400 = 0) then 29 else 28
  else if month = 4 ∨ month = 6 ∨ month = 9 ∨ month = 11 then 30
  else 31

/-- A day. -/
def date : Parser Date := do
  let year ← decimals 4
  char '-'
  let month ← twoDigits 1 12
  char '-'
  let day ← twoDigits 1 (daysIn year month)
  return ⟨year, month, day⟩

/-- A time of day. -/
def time : Parser Time := do
  let hour ← twoDigits 0 23
  char ':'
  let minute ← twoDigits 0 59
  char ':'
  let second ← twoDigits 0 60
  let behind ← maybe do
    char '.'
    takeSome Char.isDigit
  return ⟨hour, minute, second, behind.getD []⟩

/-- The distance from universal time, in minutes. -/
def offset : Parser Int :=
  (do
    let _ ← satisfy fun c => c = 'Z' || c = 'z'
    return 0) <|>
  (do
    let negative ← sign
    let hour ← twoDigits 0 23
    char ':'
    let minute ← twoDigits 0 59
    let n : Int := 60 * hour + minute
    return if negative then -n else n)

/-- A moment. -/
def moment : Parser Value :=
  (do
    let day ← date
    let clock ← maybe do
      let _ ← satisfy fun c => c = 'T' || c = 't' || c = ' '
      return (← time, ← maybe offset)
    match clock with
    | some (t, o) => return .moment (some day) (some t) o
    | none => return .moment (some day) none none) <|>
  (do return .moment none (some (← time)) none)

/-- A number or a moment. -/
def numeral : Parser Value := moment <|> decimal <|> named <|> integer

end FileCatalog.Toml.Parser
