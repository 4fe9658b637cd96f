import Enablement.Expr.Render
import Enablement.Fault
import Enablement.Text.PrintableTable

/-!
# The log — what happens while a source is parsed and evaluated

The log is a list of events, each told by its cause; `Event.record` gives the
wording. Two events open a span, which is closed by what happened last. A
computation that logs (`Logged`) gives its events also where it ends in a
fault.
-/

namespace Enablement

/-- The side of an operand. -/
inductive Side
  | left | right
deriving DecidableEq, Repr

/-- The word for a side. -/
def Side.name : Side → String
  | .left => "left"
  | .right => "right"

/-- How important an event is. -/
inductive Level
  | trace | debug | error
deriving DecidableEq, Repr

/-- The word for a level. -/
def Level.name : Level → String
  | .trace => "TRACE"
  | .debug => "DEBUG"
  | .error => "ERROR"

/-- What happens while a source is parsed and evaluated. -/
inductive Event
  /-- A source is going to be parsed. -/
  | parsing (source : String)
  /-- A token was read. -/
  | token (t : Token)
  /-- An expression is going to be evaluated. -/
  | evaluating (e : Expr)
  /-- A variable was asked for that the document does not bind. -/
  | undefinedVariable (name : String)
  /-- An operand of a logical operator is no truth value. -/
  | nonBooleanOperand (op : LogicalOp) (side : Side) (value : Value)
  /-- The whole expression is no truth value. -/
  | nonBooleanRoot (value : Value)
  /-- Evaluation ended with a verdict. -/
  | returned (verdict : Bool)
  /-- Parsing or evaluation ended with a fault. -/
  | failed (fault : Fault)
  /-- A full cache was emptied. -/
  | cacheFlushed (limit : Nat)
deriving DecidableEq, Repr

/-! ## The wording of events -/

/-- Whether a character is shown as itself between quotes. -/
def isShown (c : Char) : Bool :=
  !Text.hiddenRuns.any fun r => r.1 ≤ c.toNat && c.toNat ≤ r.2

/-- How a character stands in a quoted value of the log. -/
def quotedChar (c : Char) : String :=
  if c = '"' then "\\\""
  else if c = '\\' then "\\\\"
  else if c = '\t' then "\\t"
  else if c = '\n' then "\\n"
  else if c = '\r' then "\\r"
  else if c = '\x00' then "\\0"
  else if isShown c then c.toString
  else "\\u\x7b" ++ String.ofList (Nat.toDigits 16 c.toNat) ++ "\x7d"

/-- A text between quotes. -/
def quoted (s : String) : String := "\"" ++ String.join (s.toList.map quotedChar) ++ "\""

/-- A value with its kind. -/
def Value.describe (v : Value) : String :=
  let content := match v with
    | .boolean b => Value.boolWord b
    | .integer n => Text.signedDecimal n.toInt
    | .string s => quoted s
    | .undefined name => quoted name
  v.kind.name ++ "(" ++ content ++ ")"

/-- The wording of an event. -/
structure Record where
  /-- The name of the span that it opens, if it opens one. -/
  span? : Option String
  /-- How important it is. -/
  level : Level
  /-- What it tells, by name. -/
  fields : List (String × String)
deriving DecidableEq, Repr

/-- The wording of an event. -/
def Event.record : Event → Record
  | .parsing source => ⟨some "parse_with", .debug, [("source", source)]⟩
  | .token t =>
    ⟨none, .trace,
      [("message", "token"), ("kind", t.kind.describe), ("text", t.text?.getD ""),
       ("offset", Text.decimal t.offset)]⟩
  | .evaluating e => ⟨some "evaluate", .debug, [("expr", e.render)]⟩
  | .undefinedVariable name =>
    ⟨none, .debug, [("message", "undefined enable-info variable"), ("name", name)]⟩
  | .nonBooleanOperand op side value =>
    ⟨none, .debug,
      [("message", "non-boolean logical operand"), ("op", op.symbol.spelling),
       ("side", side.name), ("value", value.describe)]⟩
  | .nonBooleanRoot value =>
    ⟨none, .debug,
      [("message", "expression did not reduce to a boolean"), ("result", value.describe)]⟩
  | .returned verdict => ⟨none, .debug, [("return", Value.boolWord verdict)]⟩
  | .failed fault => ⟨none, .error, [("error", fault.message)]⟩
  | .cacheFlushed limit =>
    ⟨none, .debug,
      [("message", "verdict cache full, flushing"), ("limit", Text.decimal limit)]⟩

/-! ## Computations that log -/

/-- The events of a computation, and its value or the fault that ended it. -/
structure Logged (α : Type) where
  /-- What happened, in order. -/
  events : List Event
  /-- What came of it. -/
  result : Except Fault α

namespace Logged

variable {α β : Type}

/-- The computation that ends in a fault. -/
def fail (f : Fault) : Logged α := ⟨[], .error f⟩

/-- The computation that logs one event. -/
def emit (e : Event) : Logged Unit := ⟨[e], .ok ()⟩

/-- The computation that logs nothing. -/
def ofExcept (r : Except Fault α) : Logged α := ⟨[], r⟩

/-- One computation after another; a fault keeps the second from starting. -/
def andThen (x : Logged α) (f : α → Logged β) : Logged β :=
  match x.result with
  | .ok a => ⟨x.events ++ (f a).events, (f a).result⟩
  | .error e => ⟨x.events, .error e⟩

instance : Monad Logged where
  pure a := ⟨[], .ok a⟩
  bind := andThen

/-- A value alone logs nothing. -/
@[simp] theorem events_pure (a : α) : (pure a : Logged α).events = [] := rfl

/-- And is the result. -/
@[simp] theorem result_pure (a : α) : (pure a : Logged α).result = .ok a := rfl

/-- A result alone logs nothing. -/
@[simp] theorem events_ofExcept (r : Except Fault α) : (ofExcept r).events = [] := rfl

/-- And is the result. -/
@[simp] theorem result_ofExcept (r : Except Fault α) : (ofExcept r).result = r := rfl

/-- The results of computations in a row are bound as results are. -/
@[simp] theorem result_bind (x : Logged α) (f : α → Logged β) :
    (x >>= f).result = x.result >>= fun a => (f a).result := by
  show (andThen x f).result = _
  unfold andThen
  cases x.result <;> rfl

end Logged
end Enablement
