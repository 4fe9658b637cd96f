import Enablement.Document.Snapshot
import Enablement.Event

/-!
# Evaluation — what an expression says of a document

An expression is reduced to a value from the leaves up, and `Expr.run` tells
what happens on the way. An operator on values needs values of the kind it
is made for, and one that finds the mark of an unbound variable hands it on.
The logical operators and the functions do not: operands that they cannot use
make them false, or zero.

A computation stands for each operand and argument. The operators and the
functions below are given these computations and take from them what they
need, so what they leave alone leaves no trace, and no fault.
-/

namespace Enablement

/-! ## Operators on values -/

/-- The kind of the operand of a one-place operator. -/
def UnaryOp.operandKind : UnaryOp → ValueKind
  | .not => .boolean
  | .negate | .plus => .integer

/-- A one-place operator applied to a value. -/
def UnaryOp.apply (op : UnaryOp) (v : Value) : Except Fault Value :=
  match op, v with
  | _, .undefined name => .ok (.undefined name)
  | .not, .boolean b => .ok (.boolean !b)
  | .negate, .integer n => .ok (.integer (-n))
  | .plus, .integer n => .ok (.integer n)
  | op, v => .error (.typeMismatch op.symbol op.operandKind v.kind)

namespace BinaryOp

/-- An operator applied to two integers. Sums, differences and products wrap
around at 32 bits, and a quotient is rounded toward zero. -/
def onIntegers (op : BinaryOp) (a b : Int32) : Except Fault Value :=
  match op with
  | .add => .ok (.integer (a + b))
  | .subtract => .ok (.integer (a - b))
  | .multiply => .ok (.integer (a * b))
  | .divide => if b = 0 then .error .divisionByZero else .ok (.integer (a / b))
  | .eq => .ok (.boolean (a == b))
  | .ne => .ok (.boolean (a != b))
  | .gt => .ok (.boolean (b < a))
  | .ge => .ok (.boolean (b ≤ a))
  | .lt => .ok (.boolean (a < b))
  | .le => .ok (.boolean (a ≤ b))

/-- An operator applied to two values. Values of all kinds can be compared
for being equal; all else takes integers, and the first operand that is none
is at fault. -/
def apply (op : BinaryOp) (l r : Value) : Except Fault Value :=
  match l, r with
  | .undefined name, _ => .ok (.undefined name)
  | _, .undefined name => .ok (.undefined name)
  | l, r =>
    match op with
    | .eq => .ok (.boolean (l.same r))
    | .ne => .ok (.boolean !l.same r)
    | op =>
      match l, r with
      | .integer a, .integer b => op.onIntegers a b
      | .integer _, r => .error (.typeMismatch op.symbol .integer r.kind)
      | l, _ => .error (.typeMismatch op.symbol .integer l.kind)

end BinaryOp

/-! ## Logical operators -/

namespace LogicalOp

/-- The left operand that settles the matter. -/
def settledBy : LogicalOp → Bool
  | .and => false
  | .or => true

/-- What an operand that is no truth value makes of the whole. -/
def refuse (op : LogicalOp) (side : Side) (v : Value) : Logged Value := do
  Logged.emit (.nonBooleanOperand op side v)
  return .boolean false

/-- A logical operator applied to two computations. -/
def apply (op : LogicalOp) (l r : Logged Value) : Logged Value := do
  match ← l with
  | .boolean a =>
    if a = op.settledBy then return .boolean a
    else
      match ← r with
      | .boolean b => return .boolean b
      | v => op.refuse .right v
  | v => op.refuse .left v

end LogicalOp

/-! ## Functions -/

namespace Builtin

/-- Whether a candidate is the value that is looked for. -/
def isHit : Value → Value → Bool
  | .string a, .string b => Text.sameText a b
  | .integer a, .integer b => a == b
  | .boolean a, .boolean b => a == b
  | _, _ => false

/-- Membership has its own table, and by it the candidates that are hit are those that
the operators of equality find equal. -/
theorem isHit_eq_same (x c : Value) : isHit x c = x.same c := by
  cases x <;> cases c <;> rfl

/-- Whether one of the computations gives the value `x`; those after it are
left alone. -/
def anySame (x : Value) : List (Logged Value) → Logged Bool
  | [] => return false
  | c :: cs => do
    if isHit x (← c) then return true
    anySame x cs

/-- Whether the first argument is among the others. Where there are no others,
or the first is unbound, no other is looked at. -/
def isMember : List (Logged Value) → Logged Value
  | x :: c :: cs => do
    let x ← x
    if x.isUndefined then return .boolean false
    return .boolean (← anySame x (c :: cs))
  | _ => return .boolean false

/-- The integers among the values of computations, picked against `n`. -/
def pickFrom (pick : Int32 → Int32 → Int32) (n : Int32) : List (Logged Value) → Logged Value
  | [] => return .integer n
  | c :: cs => do
    match ← c with
    | .integer m => pickFrom pick (pick n m) cs
    | _ => pickFrom pick n cs

/-- The least or the greatest of the arguments that are integers, or zero if
the first two are not both integers, and then no other is looked at. -/
def extremum (pick : Int32 → Int32 → Int32) : List (Logged Value) → Logged Value
  | a :: b :: cs => do
    let a ← a
    let b ← b
    match a, b with
    | .integer a, .integer b => pickFrom pick (pick a b) cs
    | _, _ => return .integer 0
  | _ => return .integer 0

/-- Whether the first of two arguments holds and the second does not. -/
def holdsWithout : List (Logged Value) → Logged Value
  | [a, b] => do
    let a ← a
    let b ← b
    match a, b with
    | .boolean a, .boolean b => return .boolean (a && !b)
    | _, _ => return .boolean false
  | _ => return .boolean false

/-- A function applied to computations. -/
def apply : Builtin → List (Logged Value) → Logged Value
  | .member, cs => isMember cs
  | .least, cs => extremum min cs
  | .greatest, cs => extremum max cs
  | .without, cs => holdsWithout cs

end Builtin

/-- The call of a function by a name. -/
def callByName (name : String) (args : List (Logged Value)) : Logged Value :=
  match Builtin.ofName? name with
  | some f => f.apply args
  | none => .fail (.unknownFunction name)

/-- The value of a variable. -/
def Snapshot.resolve (s : Snapshot) (name : String) : Logged Value := do
  let v := s.lookup name
  if v.isUndefined then Logged.emit (.undefinedVariable name)
  return v

/-! ## Expressions -/

namespace Expr

mutual

/-- The evaluation of an expression on a document. -/
def run (s : Snapshot) : Expr → Logged Value
  | .const v => return v
  | .param name => s.resolve name
  | .unary op x => do Logged.ofExcept (op.apply (← run s x))
  | .binary op l r => do
    let l ← run s l
    let r ← run s r
    Logged.ofExcept (op.apply l r)
  | .logical op l r => op.apply (run s l) (run s r)
  | .call name args => callByName name (runAll s args)

/-- The evaluations of expressions, one by one. -/
def runAll (s : Snapshot) : List Expr → List (Logged Value)
  | [] => []
  | e :: es => run s e :: runAll s es

end

/-- The computations of the arguments, one for each. -/
theorem runAll_eq_map (s : Snapshot) (es : List Expr) : runAll s es = es.map (run s) := by
  induction es with
  | nil => rfl
  | cons e es ih => simp [runAll, ih]

/-- **The value of an expression** on a document, or the fault it ends in. -/
def eval (s : Snapshot) (e : Expr) : Except Fault Value := (run s e).result

/-- A literal comes to its value. -/
@[simp] theorem eval_const (s : Snapshot) (v : Value) : eval s (.const v) = .ok v := rfl

/-- A variable always has a value, if only the mark of an unbound one. -/
@[simp] theorem eval_param (s : Snapshot) (name : String) :
    eval s (.param name) = .ok (s.lookup name) := by
  simp only [eval, run, Snapshot.resolve]
  split <;> rfl

/-- A one-place operator is applied to what its operand comes to. -/
theorem eval_unary (s : Snapshot) (op : UnaryOp) (x : Expr) :
    eval s (.unary op x) = eval s x >>= op.apply := by
  simp [eval, run]

/-- A two-place operator is applied to what its operands come to, the left one first. -/
theorem eval_binary (s : Snapshot) (op : BinaryOp) (l r : Expr) :
    eval s (.binary op l r) = (do op.apply (← eval s l) (← eval s r)) := by
  simp [eval, run]

/-- The verdict of an expression: what it reduces to if that is a truth value,
and else false. -/
def verdict (s : Snapshot) (e : Expr) : Logged Bool := do
  match ← run s e with
  | .boolean b => return b
  | v =>
    Logged.emit (.nonBooleanRoot v)
    return false

/-- The event that closes an evaluation. -/
def closing : Except Fault Bool → Event
  | .ok b => .returned b
  | .error f => .failed f

/-- **Whether an expression enables its filter** for a document, told from
beginning to end. -/
def evaluate (s : Snapshot) (e : Expr) : Logged Bool :=
  let v := verdict s e
  ⟨.evaluating e :: v.events ++ [closing v.result], v.result⟩

end Expr
end Enablement
