import FileCatalog.Text.Digit

/-!
# Byte strings

`Bytes` is a list of octets: the carrier of keys, values and record layouts, and the shape that
the codec laws induct on. Its order is the lexicographic order of `List`, octet by octet, a proper
prefix first; it is the order in which a table keeps its keys.

The hexadecimal text of a byte string is two lower-case digits for each octet. It is the form in
which messages show a key.
-/

namespace FileCatalog

/-- A string of octets, ordered lexicographically. -/
abbrev Bytes := List UInt8

namespace Bytes

/-! ## Hexadecimal text -/

/-- The two lower-case digits of an octet, the high one first. -/
def hexPair (b : UInt8) : List Char :=
  [Nat.digitChar (b.toNat / 16), Nat.digitChar (b.toNat % 16)]

def hexDigits (bs : Bytes) : List Char := bs.flatMap hexPair

/-- The hexadecimal text of a byte string. -/
def hex (bs : Bytes) : String := String.ofList (hexDigits bs)

/-- Reads pairs of hexadecimal digits; refuses an odd digit and any other character. -/
def ofHexDigits? : List Char → Option Bytes
  | [] => some []
  | high :: low :: rest => do
    let h ← Text.hexValue? high
    let l ← Text.hexValue? low
    let bs ← ofHexDigits? rest
    return UInt8.ofNat (16 * h + l) :: bs
  | [_] => none

/-- The byte string that a hexadecimal text writes. -/
def ofHex? (s : String) : Option Bytes := ofHexDigits? s.toList

end Bytes

end FileCatalog
