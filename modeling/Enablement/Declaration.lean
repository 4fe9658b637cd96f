import Enablement.Json
import Enablement.Text.Decimal

/-!
# Declarations — the records that are stored

A record has finitely many fields. Its declaration gives each of them a place, a
key and a type, and storing the record needs no more than that: the declaration
fixes the entries that stand for it (`Declaration.Record.entries`) and the text in
which they stand without blanks (`Declaration.Record.compact`).

While a record is put together each field has a slot, which is empty or holds the
value of the field.
-/

namespace Enablement

/-- The type of a field. -/
inductive FieldType
  /-- A 32-bit integer. -/
  | integer
  /-- A truth value. -/
  | boolean
  /-- One of finitely many names. -/
  | choice (names : List String)

namespace FieldType

/-- The values of a type. -/
def Value : FieldType → Type
  | .integer => Int32
  | .boolean => Bool
  | .choice names => { name : String // name ∈ names }

/-- The names that the values of a type may have. -/
def names : FieldType → List String
  | .integer | .boolean => []
  | .choice names => names

/-- The JSON value that stands for a value. -/
def tree : (τ : FieldType) → τ.Value → Json.Tree
  | .integer, i => .scalar (.integer (Int32.toInt i))
  | .boolean, b => .scalar (.boolean b)
  | .choice _, name => .scalar (.string (Text.Utf16.encode name.1.toList))

/-- The JSON value that stands for a value, as it is written. -/
def text : (τ : FieldType) → τ.Value → String
  | .integer, i => Text.signedDecimal (Int32.toInt i)
  | .boolean, true => "true"
  | .boolean, false => "false"
  | .choice _, name => "\"" ++ name.1 ++ "\""

end FieldType

/-- Whether a character stands for itself in a JSON string. -/
def Json.isPlain (c : Char) : Bool := 32 ≤ c.toNat && c != '"' && c != '\\'

/-- The declaration of a record. -/
structure Declaration where
  /-- The fields. -/
  Field : Type
  /-- Fields can be told apart. -/
  decEq : DecidableEq Field
  /-- The fields in the order in which they are declared. -/
  all : List Field
  /-- The key of a field. -/
  key : Field → String
  /-- The type of a field. -/
  type : Field → FieldType
  /-- Each field is declared. -/
  mem_all : ∀ f, f ∈ all
  /-- No two fields have the same key. -/
  nodup_key : (all.map key).Nodup
  /-- Keys are identifiers, so none of their characters needs an escape. -/
  plain_key : ∀ f, (key f).toList.all Json.isPlain = true
  /-- And so are names. -/
  plain_name : ∀ f, ∀ name ∈ (type f).names, name.toList.all Json.isPlain = true

attribute [instance] Declaration.decEq

namespace Declaration

/-- A record: a value for each field. -/
def Record (D : Declaration) : Type := (f : D.Field) → (D.type f).Value

/-- The values of a record that are there so far. -/
def Slots (D : Declaration) : Type := (f : D.Field) → Option (D.type f).Value

variable {D : Declaration}

namespace Slots

/-- No value is there. -/
def empty : D.Slots := fun _ => none

/-- The value of a field is put into its slot. -/
def fill (s : D.Slots) (f : D.Field) (v : (D.type f).Value) : D.Slots :=
  fun g => if h : f = g then some (h ▸ v) else s g

end Slots

namespace Record

/-- The JSON value that stands for the value of a field. -/
def tree (r : D.Record) (f : D.Field) : Json.Tree := (D.type f).tree (r f)

/-- The entries that stand for a record, in the order of the declaration. -/
def entries (r : D.Record) : List (String × Json.Tree) := D.all.map fun f => (D.key f, r.tree f)

/-- The entry of a field as it is written. -/
def entryText (r : D.Record) (f : D.Field) : String :=
  "\"" ++ D.key f ++ "\":" ++ (D.type f).text (r f)

/-- The text of a record without blanks. -/
def compact (r : D.Record) : String :=
  "\x7b" ++ String.intercalate "," (D.all.map r.entryText) ++ "\x7d"

end Record

end Declaration
end Enablement
