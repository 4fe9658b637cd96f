import Enablement.Token
import Enablement.Text.Decimal
import Enablement.Text.Uppercase

/-!
# Values — what an expression reduces to

A value is a truth value, a 32-bit integer or a text, or else the mark of a
variable that the document does not bind. The mark is a value and not a
fault: it carries the name as it was written.
-/

namespace Enablement

/-- The kinds of values. -/
inductive ValueKind
  | boolean | integer | string | undefined
deriving DecidableEq, Repr

/-- The name of a kind in a diagnostic. -/
def ValueKind.name : ValueKind → String
  | .boolean => "Boolean"
  | .integer => "Integer"
  | .string => "String"
  | .undefined => "UndefinedVariable"

/-- A fully reduced value. -/
inductive Value
  /-- A truth value. -/
  | boolean (b : Bool)
  /-- A 32-bit integer. -/
  | integer (n : Int32)
  /-- A text, without quotes. -/
  | string (s : String)
  /-- The mark of a variable that is not bound, with its name. -/
  | undefined (name : String)
deriving DecidableEq, Repr

namespace Value

/-- The kind of a value. -/
def kind : Value → ValueKind
  | .boolean _ => .boolean
  | .integer _ => .integer
  | .string _ => .string
  | .undefined _ => .undefined

/-- Whether the value marks a variable that is not bound. -/
def isUndefined : Value → Bool
  | .undefined _ => true
  | _ => false

/-- The mark of an unbound variable is a value of its own kind. -/
@[simp] theorem isUndefined_iff {v : Value} : v.isUndefined = true ↔ v.kind = .undefined := by
  cases v <;> simp [isUndefined, kind]

/-- Whether two values of one kind are equal, texts being compared without
case. Values of two kinds are never the same, and a mark not even as itself. -/
def same : Value → Value → Bool
  | .boolean a, .boolean b => a == b
  | .integer a, .integer b => a == b
  | .string a, .string b => Text.sameText a b
  | _, _ => false

/-- The word for a truth value. -/
def boolWord (b : Bool) : String := if b then "true" else "false"

/-- The integer as a source may write it. There is no negative literal, so a
negative number is a minus applied to its size, and the least of all, whose
size is no 32-bit integer, is a difference. -/
def renderInteger (n : Int32) : String :=
  if n.toInt = -2147483648 then "(-2147483647 - 1)"
  else if n.toInt < 0 then "(-" ++ Text.decimal n.toInt.natAbs ++ ")"
  else Text.decimal n.toInt.natAbs

/-- The value as a source may write it. -/
def render : Value → String
  | .boolean b => boolWord b
  | .integer n => renderInteger n
  | .string s => "\"" ++ s ++ "\""
  | .undefined name => name

end Value
end Enablement
