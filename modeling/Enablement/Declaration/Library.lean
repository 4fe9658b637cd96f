import Enablement.Json.Grammar
import Enablement.Declaration

/-!
# Declarations — the library that stores records

Records are stored as JSON by a library that is not part of this development. What
it does is a parameter (`Library`), and of what it does only what its manual says is
assumed (`Library.Documented`).

The manual describes how a record is read from an object as a loop over the entries.
Each field has a slot that is empty at first. An entry whose key is that of a field
fills the slot of the field, and it is an error if the slot is full; an entry with
another key is passed over. When all entries are read each slot must be full. In an
array the values stand in the order of the declaration, as many as there are fields.
-/

namespace Enablement

/-- **What a library does that stores records as JSON.** Where it reports an error
there is no result. -/
structure Library where
  /-- The value of a type that a JSON value is read as. -/
  value? : (τ : FieldType) → Json.Tree → Option τ.Value
  /-- The slots after one entry of an object, given its key and its value. -/
  enter? : (D : Declaration) → D.Slots → String → Json.Tree → Option D.Slots
  /-- The record that the slots make when all entries are read. -/
  finish? : (D : Declaration) → D.Slots → Option D.Record
  /-- The record that the items of an array make. -/
  items? : (D : Declaration) → List Json.Tree → Option D.Record
  /-- The record that a text is read as. -/
  read? : (D : Declaration) → String → Option D.Record
  /-- The text that a record is written as. Nothing in a record can keep it from
  being written. -/
  write : (D : Declaration) → D.Record → String

namespace Library

end Library
end Enablement
