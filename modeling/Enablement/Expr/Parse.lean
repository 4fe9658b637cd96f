import Enablement.Expr
import Enablement.Fault

/-!
# Expressions — parsing

An expression is read from a stream of lexemes by descent through the ranks
of the operators, loosest first. Operators of one rank are taken from left to
right, each applied to all that was read before it (`Parser.chain`). What
binds more tightly than every operator is an operand: a literal, a variable,
a call, an expression in parentheses, or an operator before an operand.

One limit bounds two things. Parentheses, argument lists and the operators
before operands may be **nested** only so far, which bounds the recursion:
`unary` recurses on the levels that are left. And every node built from
others may be only so **deep**, which bounds all later walks over the tree.
-/

namespace Enablement

/-- What a parser has left to read. -/
abbrev Input := List (Located Lexeme)

/-- A step of a parser: what it read from the front of the input and what is
left, or a fault. -/
abbrev Parse (α : Type) := Input → Except Fault (α × Input)

/-- What all steps of one parse share. -/
structure Parser where
  /-- The limit on nesting and on depth. -/
  limit : Nat
  /-- The offset of the end of input. -/
  stop : Nat
  /-- The number of lexemes of the whole input. -/
  size : Nat

namespace Parser

variable (p : Parser)

/-- The offset of the next lexeme, or of the end of input. -/
def offset : Input → Nat
  | [] => p.stop
  | t :: _ => t.offset

/-- The fault of finding something else than was expected. -/
def unexpected (e : Expected) : Input → Fault
  | [] => .unexpectedEnd e p.stop
  | t :: _ => .unexpectedToken t.val.kind e t.offset

/-- Takes one symbol. -/
def expect (s : Symbol) (e : Expected) : Input → Except Fault Input
  | [] => .error (p.unexpected e [])
  | t :: ts => if t.val = .symbol s then .ok ts else .error (p.unexpected e (t :: ts))

/-- Refuses a node that is too deep, with the place of its operator. -/
def bounded (offset : Nat) (e : Expr) : Except Fault Expr :=
  if e.depth ≤ p.limit then .ok e else .error (.nestingTooDeep p.limit offset)

/-- Goes one level down, if there is a step for that level. -/
def nested {α : Type} (inner : Option (Parse α)) (ts : Input) : Except Fault (α × Input) :=
  match inner with
  | some step => step ts
  | none => .error (.nestingTooDeep p.limit (p.offset ts))

/-! ## Two-place operators -/

/-- The operator of rank `k` that the input starts with, its place and what
follows it. -/
def operatorAt (k : Nat) : Input → Option (Operator × Nat × Input)
  | ⟨.symbol s, place⟩ :: ts =>
    match Operator.ofSymbol? s with
    | some op => if op.rank = k then some (op, place, ts) else none
    | none => none
  | _ => none

/-- Applies the operators of rank `k` that follow `left`, in order, reading
right operands by `step`, and at most so many of them. -/
def extend (k : Nat) (step : Parse Expr) : Nat → Expr → Input → Except Fault (Expr × Input)
  | 0, left, ts => .ok (left, ts)
  | n + 1, left, ts =>
    match operatorAt k ts with
    | none => .ok (left, ts)
    | some (op, place, ts) => do
      let (right, ts) ← step ts
      let e ← p.bounded place (op.apply left right)
      extend k step n e ts

/-- Operands read by `step` with operators of rank `k` between them. Each
operator is a lexeme, so there are no more than the input has lexemes. -/
def chain (k : Nat) (step : Parse Expr) (ts : Input) : Except Fault (Expr × Input) := do
  let (left, ts) ← step ts
  p.extend k step p.size left ts

/-- An expression whose operators outside parentheses are of rank `k` at
most, where `step` reads an operand. -/
def ranked (step : Parse Expr) : Nat → Input → Except Fault (Expr × Input)
  | 0, ts => step ts
  | k + 1, ts => p.chain (k + 1) (ranked step k) ts

/-- An expression, where `step` reads an operand. -/
def expression (step : Parse Expr) (ts : Input) : Except Fault (Expr × Input) :=
  p.ranked step Operator.topRank ts

/-! ## Operands -/

/-- The arguments after the first, at most so many of them, and the closing
parenthesis, where `step` reads an expression. -/
def moreArguments (step : Parse Expr) : Nat → Input → Except Fault (List Expr × Input)
  | n + 1, ⟨.symbol .comma, _⟩ :: ts => do
    let (e, ts) ← step ts
    let (es, ts) ← moreArguments step n ts
    .ok (e :: es, ts)
  | _, ts => do
    let ts ← p.expect .rightParen .commaOrClosingParen ts
    .ok ([], ts)

/-- The arguments of a call and the closing parenthesis, where `step` reads an
expression. -/
def arguments (step : Parse Expr) : Input → Except Fault (List Expr × Input)
  | ⟨.symbol .rightParen, _⟩ :: ts => .ok ([], ts)
  | ts => do
    let (e, ts) ← step ts
    let (es, ts) ← p.moreArguments step p.size ts
    .ok (e :: es, ts)

/-- The operand of an operator, and the operator applied to it. -/
def prefixed (inner : Option (Parse Expr)) (op : UnaryOp) (place : Nat) (ts : Input) :
    Except Fault (Expr × Input) := do
  let (x, ts) ← p.nested inner ts
  let e ← p.bounded place (.unary op x)
  .ok (e, ts)

/-- The rest of an expression in parentheses. -/
def parenthesised (inner : Option (Parse Expr)) (ts : Input) : Except Fault (Expr × Input) := do
  let (e, ts) ← p.nested (inner.map p.expression) ts
  let ts ← p.expect .rightParen .closingParen ts
  .ok (e, ts)

/-- The rest of a call. -/
def called (inner : Option (Parse Expr)) (name : String) (place : Nat) (ts : Input) :
    Except Fault (Expr × Input) := do
  let (args, ts) ← p.nested (inner.map fun step => p.arguments (p.expression step)) ts
  let e ← p.bounded place (.call name args)
  .ok (e, ts)

/-- An operand, where `inner` reads the operands one level further down. -/
def operand (inner : Option (Parse Expr)) : Input → Except Fault (Expr × Input)
  | [] => .error (p.unexpected .operand [])
  | ⟨.symbol s, place⟩ :: ts =>
    match UnaryOp.ofSymbol? s with
    | some op => p.prefixed inner op place ts
    | none =>
      if s = .leftParen then p.parenthesised inner ts
      else .error (p.unexpected .operand (⟨.symbol s, place⟩ :: ts))
  | ⟨.identifier name, place⟩ :: ⟨.symbol .leftParen, _⟩ :: ts => p.called inner name place ts
  | ⟨.identifier name, _⟩ :: ts => .ok (.param name, ts)
  | ⟨.boolean text, _⟩ :: ts => .ok (.const (.boolean (Text.sameName text "true")), ts)
  | ⟨.integer text, place⟩ :: ts =>
    match Text.int32OfText? text with
    | some n => .ok (.const (.integer n), ts)
    | none => .error (.integerOverflow text place)
  | ⟨.string text, _⟩ :: ts => .ok (.const (.string text), ts)

/-- An operand with `n` levels of nesting left. -/
def unary : Nat → Input → Except Fault (Expr × Input)
  | 0, ts => p.operand none ts
  | n + 1, ts => p.operand (some (unary n)) ts

/-- The expression that the whole input spells. -/
def whole (ts : Input) : Except Fault Expr := do
  let (e, rest) ← p.expression (p.unary p.limit) ts
  match rest with
  | [] => .ok e
  | t :: _ => .error (.unexpectedToken t.val.kind .operatorOrEnd t.offset)

end Parser

namespace Expr

/-- **The expression of a stream**, or why it spells none, under a limit on
nesting and depth. -/
def ofStream (limit : Nat) (s : Stream) : Except Fault Expr :=
  Parser.whole ⟨limit, s.stop, s.lexemes.length⟩ s.lexemes

/-- The expression of a token list, of which only the part before the first
end of input counts. -/
def ofTokens (limit : Nat) (ts : List Token) : Except Fault Expr :=
  ofStream limit (.ofTokens ts)

end Expr
end Enablement
