import Enablement.Json.Reader
import Enablement.Declaration.Library

/-!
# Declarations — a library to run with

One library that does what the manual says. It reads a text as a JSON value by the
grammar and then makes a record of the value. The program runs with it, and what is
stated of stored records holds with any other library that keeps to the manual.

Where the manual leaves a choice, an integer must have no fraction and no exponent,
a name may also be the only key of an object that holds nothing under it, and every
key must be a text.
-/

namespace Enablement

namespace Json

/-- The text of a JSON string, if its units are well-formed. -/
def textOfUnits? (us : List UInt16) : Option String :=
  match Text.Utf16.decode us with
  | .ok cs => some (String.ofList cs)
  | .error _ => none

/-- The 32-bit integer that a JSON value is. -/
def integerOf? : Tree → Option Int32
  | .scalar (.integer i) => Text.int32OfInt? i
  | _ => none

/-- The truth value that a JSON value is. -/
def booleanOf? : Tree → Option Bool
  | .scalar (.boolean b) => some b
  | _ => none

/-- The name that a JSON value holds. -/
def nameOf? : Tree → Option String
  | .scalar (.string us) => textOfUnits? us
  | .object [(us, .scalar .null)] => textOfUnits? us
  | _ => none

end Json

/-- The value of a type that a JSON value stands for. -/
def FieldType.ofTree? : (τ : FieldType) → Json.Tree → Option τ.Value
  | .integer, t => Json.integerOf? t
  | .boolean, t => Json.booleanOf? t
  | .choice names, t => (Json.nameOf? t).bind fun name =>
    if h : name ∈ names then some ⟨name, h⟩ else none

namespace Declaration

variable {D : Declaration}

/-- The slots after an entry. -/
def Slots.enter? (s : D.Slots) (key : String) (t : Json.Tree) : Option D.Slots :=
  match D.all.find? fun f => D.key f == key with
  | none => some s
  | some f => if (s f).isSome then none else ((D.type f).ofTree? t).map (s.fill f)

/-- The record of slots that are all full. -/
def Slots.finish? (s : D.Slots) : Option D.Record :=
  if h : ∀ f ∈ D.all, (s f).isSome then some fun f => (s f).get (h f (D.mem_all f)) else none

namespace Record

/-- The record of as many items as there are fields. -/
def ofItems? (ts : List Json.Tree) : Option D.Record :=
  if ts.length = D.all.length then
    Slots.finish? fun f => ts[D.all.idxOf f]?.bind (D.type f).ofTree?
  else none

/-- The record of some entries. -/
def ofEntries? (es : List (String × Json.Tree)) : Option D.Record :=
  (es.foldlM (fun (s : D.Slots) e => s.enter? e.1 e.2) .empty).bind Slots.finish?

/-- The record that a JSON value stands for. -/
def ofTree? : Json.Tree → Option D.Record
  | .object members => do
    let es ← members.mapM fun m => (Json.textOfUnits? m.1).map fun key => (key, m.2)
    ofEntries? es
  | .array ts => ofItems? ts
  | .scalar _ => none

end Record

end Declaration

/-- **A library to run with.** -/
def Library.direct : Library where
  value? := FieldType.ofTree?
  enter? _ := Declaration.Slots.enter?
  finish? _ := Declaration.Slots.finish?
  items? _ := Declaration.Record.ofItems?
  read? _ text := (Json.read? text).bind Declaration.Record.ofTree?
  write _ := Declaration.Record.compact

end Enablement
