import Enablement.Expr

/-!
# Expressions — the trees within a tree

An expression is one tree and holds others: those of its operands or
arguments, and so on down to the leaves. They are listed with the whole first
and then from left to right (`Expr.subtrees`). What is to hold of every tree
may be proved of one from its direct children (`Expr.induct_children`), and
what holds of a child's subtrees holds of subtrees of the whole
(`Expr.mem_subtrees_iff`).
-/

namespace Enablement
namespace Expr

/-- The operands or arguments of an expression, from left to right. -/
def children : Expr → List Expr
  | .const _ | .param _ => []
  | .unary _ x => [x]
  | .binary _ l r | .logical _ l r => [l, r]
  | .call _ args => args

mutual

/-- All trees within an expression, itself first and the others from left to
right. -/
def subtrees : Expr → List Expr
  | .const v => [.const v]
  | .param name => [.param name]
  | .unary op x => .unary op x :: subtrees x
  | .binary op l r => .binary op l r :: (subtrees l ++ subtrees r)
  | .logical op l r => .logical op l r :: (subtrees l ++ subtrees r)
  | .call name args => .call name args :: subtreesAll args

/-- All trees within some expressions. -/
def subtreesAll : List Expr → List Expr
  | [] => []
  | e :: es => subtrees e ++ subtreesAll es

end

variable {c e t : Expr}

/-- The subtrees of arguments are those of each. -/
theorem subtreesAll_eq_flatMap (es : List Expr) : subtreesAll es = es.flatMap subtrees := by
  induction es with
  | nil => rfl
  | cons e es ih => rw [subtreesAll, ih, List.flatMap_cons]

/-- The subtrees are the whole and the subtrees of its children. -/
theorem subtrees_eq (e : Expr) : e.subtrees = e :: e.children.flatMap subtrees := by
  cases e <;> simp [subtrees, children, subtreesAll_eq_flatMap]

/-- The subtrees of a tree are the tree and those of its children. -/
theorem mem_subtrees_iff : t ∈ e.subtrees ↔ t = e ∨ ∃ c ∈ e.children, t ∈ c.subtrees := by
  rw [subtrees_eq, List.mem_cons, List.mem_flatMap]

/-- A tree is a subtree of itself. -/
theorem mem_subtrees_self (e : Expr) : e ∈ e.subtrees := mem_subtrees_iff.2 (.inl rfl)

/-- A subtree of a child is one of the tree. -/
theorem mem_subtrees_of_child (hc : c ∈ e.children) (ht : t ∈ c.subtrees) : t ∈ e.subtrees :=
  mem_subtrees_iff.2 (.inr ⟨c, hc, ht⟩)

/-- **Induction from the children**: what holds of an expression if it holds of
its children holds of all. -/
theorem induct_children {P : Expr → Prop} (h : ∀ e, (∀ c ∈ e.children, P c) → P e) :
    ∀ e, P e := by
  intro e
  induction e using induct with
  | const v => exact h _ (by simp [children])
  | param name => exact h _ (by simp [children])
  | unary op x ih => exact h _ (by simpa [children] using ih)
  | binary op l r ihl ihr => exact h _ (by simpa [children] using ⟨ihl, ihr⟩)
  | logical op l r ihl ihr => exact h _ (by simpa [children] using ⟨ihl, ihr⟩)
  | call name args ih => exact h _ ih

/-! ## Expressions that take all their operands -/

/-- The expression is built with operators on values alone: no logical operator
and no call stands in it, so no operand is ever left alone. -/
inductive IsStrict : Expr → Prop
  | const {v : Value} : IsStrict (.const v)
  | param {name : String} : IsStrict (.param name)
  | unary {op : UnaryOp} {x : Expr} : IsStrict x → IsStrict (.unary op x)
  | binary {op : BinaryOp} {l r : Expr} : IsStrict l → IsStrict r → IsStrict (.binary op l r)

end Expr
end Enablement
