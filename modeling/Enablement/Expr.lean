import Enablement.Value
import Enablement.Text.AsciiCase

/-!
# Expressions — the tree

An expression is a literal, a variable, a one-place or two-place operator
applied to operands, or the call of a function. Functions are called by any
name; whether it is one of the four that exist is asked in evaluation. The
two-place operators are those on values and the two logical ones, which need
not look at their right operand; as far as the grammar goes they form one
family (`Operator`), ranked by how tightly they bind.
-/

namespace Enablement

/-! ## Operators -/

/-- The operators written before their operand. -/
inductive UnaryOp
  | not | negate | plus
deriving DecidableEq, Repr

namespace UnaryOp

/-- The symbol of an operator. -/
def symbol : UnaryOp → Symbol
  | .not => .not
  | .negate => .minus
  | .plus => .plus

/-- The operator that a symbol stands for before an operand. -/
def ofSymbol? : Symbol → Option UnaryOp
  | .not => some .not
  | .minus => some .negate
  | .plus => some .plus
  | _ => none

/-- The operator of a symbol is the one that is written with it. -/
theorem ofSymbol?_eq_some_iff {s : Symbol} {op : UnaryOp} :
    ofSymbol? s = some op ↔ op.symbol = s := by
  cases op <;> cases s <;> decide

end UnaryOp

/-- The operators on two values. -/
inductive BinaryOp
  | add | subtract | multiply | divide
  | eq | ne | gt | ge | lt | le
deriving DecidableEq, Repr

/-- The symbol of an operator. -/
def BinaryOp.symbol : BinaryOp → Symbol
  | .add => .plus
  | .subtract => .minus
  | .multiply => .star
  | .divide => .slash
  | .eq => .eq
  | .ne => .ne
  | .gt => .gt
  | .ge => .ge
  | .lt => .lt
  | .le => .le

/-- The operators that may leave their right operand alone. -/
inductive LogicalOp
  | and | or
deriving DecidableEq, Repr

/-- The symbol of an operator. -/
def LogicalOp.symbol : LogicalOp → Symbol
  | .and => .and
  | .or => .or

/-- The functions that exist. -/
inductive Builtin
  /-- Whether the first argument is among the others. -/
  | member
  /-- The least integer argument. -/
  | least
  /-- The greatest integer argument. -/
  | greatest
  /-- Whether the first argument holds and the second does not. -/
  | without
deriving DecidableEq, Repr

namespace Builtin

/-- The name that a function is called by. -/
def name : Builtin → String
  | .member => "in"
  | .least => "min"
  | .greatest => "max"
  | .without => "dim"

/-- All functions. -/
def all : List Builtin := [.member, .least, .greatest, .without]

/-- The function that a name stands for, in whatever case it is written. -/
def ofName? (s : String) : Option Builtin := all.find? fun b => Text.sameName b.name s

end Builtin

/-! ## The tree -/

/-- An expression. -/
inductive Expr
  /-- A literal, or a value already found. -/
  | const (v : Value)
  /-- A variable of the document. -/
  | param (name : String)
  /-- An operator before its operand. -/
  | unary (op : UnaryOp) (operand : Expr)
  /-- An operator on two values. -/
  | binary (op : BinaryOp) (left right : Expr)
  /-- A logical operator. -/
  | logical (op : LogicalOp) (left right : Expr)
  /-- The call of a function. -/
  | call (name : String) (args : List Expr)
deriving Repr

namespace Expr

/-- **Induction on expressions**, where a call may use the statement for each of
its arguments. -/
@[elab_as_elim]
theorem induct {P : Expr → Prop} (const : ∀ v, P (.const v)) (param : ∀ name, P (.param name))
    (unary : ∀ op x, P x → P (.unary op x))
    (binary : ∀ op l r, P l → P r → P (.binary op l r))
    (logical : ∀ op l r, P l → P r → P (.logical op l r))
    (call : ∀ name args, (∀ a ∈ args, P a) → P (.call name args)) : ∀ e, P e
  | .const v => const v
  | .param name => param name
  | .unary op x => unary op x (induct const param unary binary logical call x)
  | .binary op l r =>
    binary op l r (induct const param unary binary logical call l)
      (induct const param unary binary logical call r)
  | .logical op l r =>
    logical op l r (induct const param unary binary logical call l)
      (induct const param unary binary logical call r)
  | .call name args =>
    call name args fun a _ => induct const param unary binary logical call a
termination_by e => sizeOf e

/-! ## Equality -/

mutual

/-- Whether two expressions are the same tree. -/
def same : Expr → Expr → Bool
  | .const v, .const w => v == w
  | .param a, .param b => a == b
  | .unary o x, .unary p y => o == p && same x y
  | .binary o x y, .binary p z w => o == p && same x z && same y w
  | .logical o x y, .logical p z w => o == p && same x z && same y w
  | .call a xs, .call b ys => a == b && sameAll xs ys
  | _, _ => false

/-- Whether two lists hold the same trees in the same order. -/
def sameAll : List Expr → List Expr → Bool
  | [], [] => true
  | x :: xs, y :: ys => same x y && sameAll xs ys
  | _, _ => false

end

mutual

/-- Trees that compare as the same are equal. -/
theorem eq_of_same : ∀ {a b : Expr}, same a b = true → a = b
  | .const _, b, h => by cases b <;> simp_all [same]
  | .param _, b, h => by cases b <;> simp_all [same]
  | .unary _ x, b, h => by
    cases b <;> simp_all [same]
    exact eq_of_same h.2
  | .binary _ x y, b, h => by
    cases b <;> simp_all [same]
    exact ⟨eq_of_same h.1.2, eq_of_same h.2⟩
  | .logical _ x y, b, h => by
    cases b <;> simp_all [same]
    exact ⟨eq_of_same h.1.2, eq_of_same h.2⟩
  | .call _ xs, b, h => by
    cases b <;> simp_all [same]
    exact eq_of_sameAll h.2

/-- And so are lists of trees, one by one. -/
theorem eq_of_sameAll : ∀ {as bs : List Expr}, sameAll as bs = true → as = bs
  | [], bs, h => by cases bs <;> simp_all [sameAll]
  | a :: as, bs, h => by
    cases bs with
    | nil => simp [sameAll] at h
    | cons b bs =>
      simp only [sameAll, Bool.and_eq_true] at h
      rw [eq_of_same h.1, eq_of_sameAll h.2]

end

mutual

/-- A tree compares as the same as itself. -/
theorem same_self : ∀ a : Expr, same a a = true
  | .const _ | .param _ => by simp [same]
  | .unary _ x => by simp [same, same_self x]
  | .binary _ x y | .logical _ x y => by simp [same, same_self x, same_self y]
  | .call _ xs => by simp [same, sameAll_self xs]

/-- And so does a list of trees. -/
theorem sameAll_self : ∀ as : List Expr, sameAll as as = true
  | [] => by simp [sameAll]
  | a :: as => by simp [sameAll, same_self a, sameAll_self as]

end

/-- So the comparison decides equality. -/
theorem same_iff {a b : Expr} : same a b = true ↔ a = b :=
  ⟨eq_of_same, fun h => h ▸ same_self a⟩

instance : DecidableEq Expr := fun _ _ => decidable_of_iff _ same_iff

/-! ## Depth -/

mutual

/-- The number of levels of a tree: one for a leaf, and for any other node
one more than for its deepest child. -/
def depth : Expr → Nat
  | .const _ | .param _ => 1
  | .unary _ x => 1 + depth x
  | .binary _ l r | .logical _ l r => 1 + max (depth l) (depth r)
  | .call _ args => 1 + depthAll args

/-- The depth of the deepest of some trees, and 0 for none. -/
def depthAll : List Expr → Nat
  | [] => 0
  | e :: es => max (depth e) (depthAll es)

end

/-- There is no tree without a node. -/
theorem depth_pos (e : Expr) : 0 < e.depth := by
  cases e <;> simp only [depth] <;> omega

/-- An argument is no deeper than the deepest one. -/
theorem depth_le_depthAll {e : Expr} {es : List Expr} (h : e ∈ es) : e.depth ≤ depthAll es := by
  induction es with
  | nil => simp at h
  | cons a es ih =>
    simp only [depthAll]
    rcases List.mem_cons.1 h with rfl | h
    · omega
    · have := ih h
      omega

/-- The depth of arguments is bounded just if that of each is. -/
theorem depthAll_le_iff {es : List Expr} {n : Nat} : depthAll es ≤ n ↔ ∀ e ∈ es, e.depth ≤ n := by
  induction es with
  | nil => simp [depthAll]
  | cons a es ih => rw [depthAll, Nat.max_le, ih, List.forall_mem_cons]

end Expr

/-! ## Two-place operators in the grammar -/

/-- The operators written between their operands. -/
inductive Operator
  /-- An operator on two values. -/
  | binary (op : BinaryOp)
  /-- A logical operator. -/
  | logical (op : LogicalOp)
deriving DecidableEq, Repr

namespace Operator

/-- The symbol of an operator. -/
def symbol : Operator → Symbol
  | .binary op => op.symbol
  | .logical op => op.symbol

/-- The operator that a symbol stands for between operands. -/
def ofSymbol? : Symbol → Option Operator
  | .or => some (.logical .or)
  | .and => some (.logical .and)
  | .eq => some (.binary .eq)
  | .ne => some (.binary .ne)
  | .gt => some (.binary .gt)
  | .ge => some (.binary .ge)
  | .lt => some (.binary .lt)
  | .le => some (.binary .le)
  | .star => some (.binary .multiply)
  | .slash => some (.binary .divide)
  | .plus => some (.binary .add)
  | .minus => some (.binary .subtract)
  | .leftParen | .rightParen | .comma | .not => none

/-- The operator of a symbol is the one that is written with it. -/
theorem ofSymbol?_eq_some_iff {s : Symbol} {op : Operator} :
    ofSymbol? s = some op ↔ op.symbol = s := by
  rcases op with op | op <;> cases op <;> cases s <;> decide

/-- How loosely an operator binds: `*` and `/` bind most tightly. -/
def rank : Operator → Nat
  | .binary .multiply | .binary .divide => 1
  | .binary .add | .binary .subtract => 2
  | .binary .gt | .binary .ge | .binary .lt | .binary .le => 3
  | .binary .eq | .binary .ne => 4
  | .logical .and => 5
  | .logical .or => 6

/-- The rank of the loosest operator. -/
def topRank : Nat := 6

/-- No operator binds looser than a whole expression. -/
theorem rank_pos (op : Operator) : 0 < op.rank := by
  rcases op with op | op <;> cases op <;> decide

/-- Nor tighter than the tightest. -/
theorem rank_le_topRank (op : Operator) : op.rank ≤ topRank := by
  rcases op with op | op <;> cases op <;> decide

/-- The operator applied to two operands. -/
def apply : Operator → Expr → Expr → Expr
  | .binary op, l, r => .binary op l r
  | .logical op, l, r => .logical op l r

/-- An operator is one level above the deeper of its operands. -/
@[simp] theorem depth_apply (op : Operator) (l r : Expr) :
    (op.apply l r).depth = 1 + max l.depth r.depth := by
  cases op <;> simp [apply, Expr.depth]

end Operator
end Enablement
