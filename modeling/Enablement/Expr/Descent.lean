import Enablement.Expr.Parse

/-!
# Expressions — parsing by a cursor

The parse of a token list told by what moves: a cursor over the tokens, all of
which stay where they are, and a counter of the levels of nesting that are
open. A production looks at the token under the cursor, goes past it, and calls
other productions; a loop is a production that calls itself (`Descent.body`).
Nothing here cuts the list at its first end of input. That a parse does not go
past it, and that it comes to a result, is for theorems to say.

A run has a stack of so many calls (`Descent.run`). It has no outcome if the
stack is used up, or if the cursor stands where no token is.
-/

namespace Enablement

/-- What all steps of one descent share. -/
structure Descent where
  /-- The token in a place. -/
  look : Nat → Option Token
  /-- The limit on nesting and on depth. -/
  limit : Nat

namespace Descent

/-- The tokens with an end of input behind them, unless they end in one. It
stands one past the last token, or at 0. An offset is less than the greatest
number of a machine word, so one past it is an offset too. -/
def closed (ts : List Token) : List Token :=
  match ts.getLast? with
  | some t => if t.kind = .endOfInput then ts else ts ++ [⟨none, t.offset + 1⟩]
  | none => [⟨none, 0⟩]

/-- The descent over a token list. A place behind the last token is taken for the
last one. -/
def ofTokens (limit : Nat) (ts : List Token) : Descent :=
  ⟨fun i => (closed ts)[min i ((closed ts).length - 1)]?, limit⟩

/-- The descent over a token list where no token is found behind the last one. -/
def unclamped (limit : Nat) (ts : List Token) : Descent := ⟨fun i => (closed ts)[i]?, limit⟩

/-- What a step changes. -/
structure State where
  /-- The place of the next token. -/
  cursor : Nat
  /-- The number of levels that are open. -/
  depth : Nat
deriving DecidableEq, Repr

/-- A step of a descent. It may have no outcome; else it has a result or a fault,
and leaves the state changed in either case. -/
abbrev Step (α : Type) := ExceptT Fault (StateT State Option) α

variable (d : Descent) {α : Type}

/-! ## The cursor and the counter -/

/-- The token under the cursor. -/
def peek : Step Token := do
  match d.look (← get).cursor with
  | some t => return t
  | none => ExceptT.lift (StateT.lift none)

/-- Goes past the token under the cursor, but not past an end of input. -/
def advance : Step Token := do
  let t ← d.peek
  if t.kind ≠ .endOfInput then modify fun st => { st with cursor := st.cursor + 1 }
  return t

/-- The fault of finding something else than was expected. -/
def unexpected (e : Expected) : Step α := do
  let t ← d.peek
  if t.kind = .endOfInput then throw (.unexpectedEnd e t.offset)
  else throw (.unexpectedToken t.kind e t.offset)

/-- Goes past one symbol. -/
def expect (s : Symbol) (e : Expected) : Step Unit := do
  if (← d.peek).kind = .symbol s then discard d.advance else d.unexpected e

/-- Goes one level down, if the limit allows it, and up again whether or not
there is a fault. -/
def nested (inner : Step α) : Step α := do
  modify fun st => { st with depth := st.depth + 1 }
  if d.limit < (← get).depth then throw (.nestingTooDeep d.limit (← d.peek).offset)
  else
    let r ← ExceptT.lift inner.run
    modify fun st => { st with depth := st.depth - 1 }
    ExceptT.mk (pure r)

/-- Refuses a node that is too deep, with the place of its operator. -/
def bounded (place : Nat) (e : Expr) : Step Expr :=
  if d.limit < e.depth then throw (.nestingTooDeep d.limit place) else return e

/-! ## The productions, each with the steps that it calls -/

/-- The operator that a token is before an operand. -/
def unaryOp? (t : Token) : Option UnaryOp :=
  match t.kind with
  | .symbol s => UnaryOp.ofSymbol? s
  | _ => none

/-- The operator of rank `k` that a token is between operands. -/
def operator? (k : Nat) (t : Token) : Option Operator :=
  match t.kind with
  | .symbol s => (Operator.ofSymbol? s).filter (·.rank = k)
  | _ => none

/-- An operand and the operators before it. -/
def prefixed (operand primary : Step Expr) : Step Expr := do
  match unaryOp? (← d.peek) with
  | some op =>
    let place := (← d.advance).offset
    let x ← d.nested operand
    d.bounded place (.unary op x)
  | none => primary

/-- What the operators of rank `k` behind the cursor make of a left operand: one
round of the loop. -/
def rest (k : Nat) (left : Expr) (operand : Step Expr) (again : Expr → Step Expr) :
    Step Expr := do
  match operator? k (← d.peek) with
  | some op =>
    let place := (← d.advance).offset
    let right ← operand
    let e ← d.bounded place (op.apply left right)
    again e
  | none => return left

/-- What follows a name: the arguments of a call, or nothing that belongs to it. -/
def named (name : String) (place : Nat) (arguments : Step (List Expr)) : Step Expr := do
  if (← d.peek).kind = .symbol .leftParen then
    discard d.advance
    let args ← d.nested arguments
    d.bounded place (.call name args)
  else return .param name

/-- A literal, a variable, a call or an expression in parentheses. -/
def primary (expression : Step Expr) (arguments : Step (List Expr)) : Step Expr := do
  match (← d.peek).val with
  | some (.integer text) =>
    let place := (← d.advance).offset
    match Text.int32OfText? text with
    | some n => return .const (.integer n)
    | none => throw (.integerOverflow text place)
  | some (.boolean text) =>
    discard d.advance
    return .const (.boolean (Text.sameName text "true"))
  | some (.string text) =>
    discard d.advance
    return .const (.string text)
  | some (.identifier name) =>
    let place := (← d.advance).offset
    d.named name place arguments
  | some (.symbol .leftParen) =>
    discard d.advance
    let e ← d.nested expression
    d.expect .rightParen .closingParen
    return e
  | _ => d.unexpected .operand

/-- The arguments of a call, through the closing parenthesis. -/
def arguments (expression : Step Expr) (more : List Expr → Step (List Expr)) :
    Step (List Expr) := do
  if (← d.peek).kind = .symbol .rightParen then
    discard d.advance
    return []
  else
    let e ← expression
    more [e]

/-- The arguments behind those that were read: one round of the loop. -/
def moreArguments (args : List Expr) (expression : Step Expr)
    (again : List Expr → Step (List Expr)) : Step (List Expr) := do
  if (← d.peek).kind = .symbol .comma then
    discard d.advance
    let e ← expression
    again (args ++ [e])
  else
    d.expect .rightParen .commaOrClosingParen
    return args

/-! ## Calls -/

/-- A rank of operators; those before operands have rank 0. -/
abbrev Rank := Fin (Operator.topRank + 1)

/-- The rank of the operators that bind next more tightly. -/
def Rank.tighter (k : Rank) : Rank := ⟨k - 1, by omega⟩

/-- The productions. -/
inductive Production
  /-- A literal, a variable, a call or an expression in parentheses. -/
  | primary
  /-- An expression whose operators outside parentheses are of this rank at most. -/
  | ranked (k : Rank)
  /-- What the operators of this rank that follow make of a left operand. -/
  | rest (k : Rank) (left : Expr)
  /-- The arguments of a call, through the closing parenthesis. -/
  | arguments
  /-- The arguments behind those that were read. -/
  | moreArguments (args : List Expr)
deriving DecidableEq, Repr

namespace Production

/-- What a production reads. -/
@[reducible] def Result : Production → Type
  | .primary | .ranked _ | .rest .. => Expr
  | .arguments | .moreArguments _ => List Expr

/-- A whole expression. -/
abbrev expression : Production := .ranked (Fin.last Operator.topRank)

end Production

/-- A step for each production. -/
abbrev Calls := (c : Production) → Step c.Result

/-- **A production**, where `calls` are the productions that it calls. -/
def body (calls : Calls) : Calls
  | .primary => d.primary (calls .expression) (calls .arguments)
  | .ranked k =>
    if k = 0 then d.prefixed (calls (.ranked 0)) (calls .primary)
    else do
      let left ← calls (.ranked k.tighter)
      calls (.rest k left)
  | .rest k left => d.rest k left (calls (.ranked k.tighter)) fun e => calls (.rest k e)
  | .arguments => d.arguments (calls .expression) fun args => calls (.moreArguments args)
  | .moreArguments args =>
    d.moreArguments args (calls .expression) fun args => calls (.moreArguments args)

/-- A production with a stack of `n` calls, which has no outcome if more than these
are open at a time. -/
def run : Nat → Calls
  | 0 => fun _ _ => none
  | n + 1 => d.body (run n)

/-- The expression that the tokens spell from the first one to an end of input. -/
def whole (n : Nat) : Step Expr := do
  let e ← d.run n .expression
  let t ← d.peek
  if t.kind ≠ .endOfInput then throw (.unexpectedToken t.kind .operatorOrEnd t.offset)
  else return e

/-- **The expression of a token list**, or why it spells none, found with a stack of
`n` calls. -/
def parse (n limit : Nat) (ts : List Token) : Option (Except Fault Expr) :=
  ((ofTokens limit ts).whole n ⟨0, 0⟩).map (·.1)

end Descent
end Enablement
