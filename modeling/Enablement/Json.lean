import Enablement.Text.Utf16

/-!
# JSON — values

Strings are kept as 16-bit units, because an escape may name half of a
surrogate pair without the other half. Such a string is well written but has
no text. Numbers are kept only if they are integers.
-/

namespace Enablement
namespace Json

/-- A value without parts. -/
inductive Scalar
  | null
  | boolean (b : Bool)
  /-- A number written as an integer. -/
  | integer (i : Int)
  /-- A number with a fraction or an exponent, or minus zero, which is no
  integer. -/
  | real
  /-- A string, as units of UTF-16. -/
  | string (units : List UInt16)
deriving DecidableEq, Repr

/-- What a text stands for. -/
inductive Tree
  | scalar (s : Scalar)
  | array (items : List Tree)
  | object (members : List (List UInt16 × Tree))
deriving Repr

end Json
end Enablement
