/-!
# Counting within a word

Sizes and generations are words of 64 bits. A sum that does not fit is not wrapped: the operation
that asks for it stops there with an `ArithmeticFault`, and what it changed before stays changed.
-/

namespace FileCatalog

/-- Why a sum has no value. -/
inductive ArithmeticFault where
  /-- The sum does not fit its word. -/
  | additionOverflow
  deriving DecidableEq, Repr

/-- The wording of the fault. -/
def ArithmeticFault.message : ArithmeticFault → String
  | .additionOverflow => "attempt to add with overflow"

namespace Counting

/-- The sum of two words where it fits a word. -/
def addChecked (a b : UInt64) : Except ArithmeticFault UInt64 :=
  if a.toNat + b.toNat < UInt64.size then .ok (a + b) else .error .additionOverflow

/-- The sum of two words, or the largest word where it does not fit. -/
def addClamped (a b : UInt64) : UInt64 :=
  if a.toNat + b.toNat < UInt64.size then a + b else UInt64.ofNat (UInt64.size - 1)

end Counting

end FileCatalog
