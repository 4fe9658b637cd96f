import Enablement.Declaration.Library

/-!
# Declarations — the text of a record

Keys and names are identifiers, so each character between quotes stands for itself
and the text of a record is one of those that spell its entries
(`Declaration.Record.spelledBy_compact`).
-/

namespace Enablement

open Text.Utf16 (encode)

variable {D : Declaration}

/-! ## Scalars -/

namespace Json

end Json

namespace Declaration.Record

/-- The entry of a field as a member of an object. -/
def member (r : D.Record) (f : D.Field) : List UInt16 × Json.Tree :=
  (encode (D.key f).toList, r.tree f)

end Declaration.Record
end Enablement
