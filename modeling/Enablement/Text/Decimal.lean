/-!
# Decimal — the text of 32-bit integers

An integer is written in ASCII digits. Leading zeros are allowed and carry
no weight, so the only texts refused are those without digits, those with
other characters, and those whose value needs more than 32 bits.
-/

namespace Enablement
namespace Text

/-- The number that one or more ASCII digits spell. -/
def natOfDigits? (cs : List Char) : Option Nat :=
  if cs.isEmpty || !cs.all Char.isDigit then none else some (Nat.ofDigitChars 10 cs 0)

/-- The 32-bit word of an integer, if it fits. -/
def int32OfInt? (i : Int) : Option Int32 :=
  if -2147483648 ≤ i ∧ i ≤ 2147483647 then some (Int32.ofInt i) else none

/-- The 32-bit integer that a text spells: digits after at most one sign. -/
def int32OfText? (s : String) : Option Int32 :=
  match s.toList with
  | '-' :: ds => (natOfDigits? ds).bind fun n => int32OfInt? (-n)
  | '+' :: ds => (natOfDigits? ds).bind fun n => int32OfInt? n
  | ds => (natOfDigits? ds).bind fun n => int32OfInt? n

/-- The digits of a number, without leading zeros. -/
def decimal (n : Nat) : String := String.ofList (Nat.toDigits 10 n)

/-- The text of an integer: its digits, after a minus sign if it is negative. -/
def signedDecimal (i : Int) : String :=
  if i < 0 then "-" ++ decimal i.natAbs else decimal i.natAbs

end Text
end Enablement
