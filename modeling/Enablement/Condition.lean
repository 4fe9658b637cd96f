import Enablement.Eval
import Enablement.Expr.Parse
import Enablement.Token.Scan
import Enablement.Text.Utf16

/-!
# Conditions — from a source to a verdict

A filter states the documents that it works on by the source of an
expression. A condition is such a source with its expression, parsed once and
evaluated as often as documents change. The source may be text, 16-bit units
or single bytes; the last two end at the first zero, and all three come to
the same condition if they spell the same characters.
-/

namespace Enablement

/-- How a source is parsed. -/
structure Options where
  /-- The limit on nesting and on the depth of the tree. -/
  maxDepth : Nat := 256
  /-- Whether every token is logged. -/
  traceTokens : Bool := false
deriving DecidableEq, Repr

namespace Expr

/-- **The expression that a source spells**, or the first fault in it. -/
def ofSource (limit : Nat) (source : String) : Except Fault Expr := do
  let s ← Stream.ofSource source
  ofStream limit s

/-- The event that closes a parse, if there is one. -/
def parseFailure : Except Fault Expr → List Event
  | .ok _ => []
  | .error f => [.failed f]

/-- The tokens of a source, told one by one where the options ask for it. -/
def tokenEvents (o : Options) (source : String) : List Event :=
  if o.traceTokens then
    match Stream.ofSource source with
    | .ok s => s.toTokens.map .token
    | .error _ => []
  else []

/-- The parse of a source, told from beginning to end. -/
def parse (o : Options) (source : String) : Logged Expr :=
  let r := ofSource o.maxDepth source
  ⟨.parsing source :: tokenEvents o source ++ parseFailure r, r⟩

end Expr

/-- A source and its expression. -/
structure Condition where
  /-- The source as given. -/
  source : String
  /-- What it spells. -/
  tree : Expr
deriving DecidableEq, Repr

namespace Condition

/-- The condition that a text spells. -/
def ofSource (o : Options) (source : String) : Logged Condition := do
  let tree ← Expr.parse o source
  return ⟨source, tree⟩

/-- The condition that 16-bit units spell up to the first zero. Units that are
no UTF-16 are refused before anything is parsed. -/
def ofUtf16 (units : List UInt16) : Logged Condition :=
  match Text.Utf16.decode (units.takeWhile (· != 0)) with
  | .ok cs => ofSource {} (String.ofList cs)
  | .error i => .fail (.invalidEncoding i)

/-- The condition that bytes spell up to the first zero. -/
def ofBytes (bytes : List UInt8) : Logged Condition :=
  ofSource {} (String.ofList (Text.latin1 (bytes.takeWhile (· != 0))))

/-- Whether the condition enables its filter for a document. -/
def evaluate (c : Condition) (s : Snapshot) : Logged Bool := c.tree.evaluate s

end Condition

/-- The verdict of a source on a document, or the first fault on the way. -/
def evaluateSource (source : String) (s : Snapshot) : Except Fault Bool := do
  let e ← Expr.ofSource (Options.maxDepth {}) source
  (e.evaluate s).result

end Enablement
