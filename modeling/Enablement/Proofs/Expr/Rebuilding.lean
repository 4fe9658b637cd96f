import Enablement.Proofs.Expr.Subtrees

/-!
# Expressions — other leaves

A tree is rebuilt with other trees for its constants and its variables, and
with other names for its functions, while its operators stay as they are
(`Expr.rebuild`). It then grows by what its leaves grow, and not more.
-/

namespace Enablement
namespace Expr

section

variable (c : Value → Expr) (p : String → Expr) (f : String → String)

mutual

/-- The expression with `c` for its constants, `p` for its variables and `f` for
the names of its functions. -/
def rebuild : Expr → Expr
  | .const v => c v
  | .param name => p name
  | .unary op x => .unary op (rebuild x)
  | .binary op l r => .binary op (rebuild l) (rebuild r)
  | .logical op l r => .logical op (rebuild l) (rebuild r)
  | .call name args => .call (f name) (rebuildAll args)

/-- The expressions with such leaves. -/
def rebuildAll : List Expr → List Expr
  | [] => []
  | e :: es => rebuild e :: rebuildAll es

end

/-- The arguments are rebuilt one by one. -/
theorem rebuildAll_eq_map (es : List Expr) : rebuildAll c p f es = es.map (rebuild c p f) := by
  induction es with
  | nil => rfl
  | cons e es ih => rw [rebuildAll, ih, List.map_cons]

/-- A call is rebuilt from its arguments. -/
theorem rebuild_call (name : String) (args : List Expr) :
    rebuild c p f (.call name args) = .call (f name) (args.map (rebuild c p f)) := by
  rw [rebuild, rebuildAll_eq_map]

/-- An operator is rebuilt from its operands. -/
@[simp] theorem rebuild_apply (op : Operator) (l r : Expr) :
    rebuild c p f (op.apply l r) = op.apply (rebuild c p f l) (rebuild c p f r) := by
  cases op <;> rw [Operator.apply, rebuild] <;> rfl

/-- With its own leaves and names a tree is itself. -/
theorem rebuild_self (e : Expr) : e.rebuild .const .param id = e := by
  induction e using Expr.induct with
  | const v => rfl
  | param name => rfl
  | unary op x ih => rw [rebuild, ih]
  | binary op l r ihl ihr => rw [rebuild, ihl, ihr]
  | logical op l r ihl ihr => rw [rebuild, ihl, ihr]
  | call name args ih => rw [rebuild_call, List.map_congr_left ih, List.map_id', id]

/-- Only what is put for its own variables counts. -/
theorem rebuild_congr {q : String → Expr} {e : Expr}
    (h : ∀ name, param name ∈ e.subtrees → p name = q name) :
    e.rebuild c p f = e.rebuild c q f := by
  induction e using Expr.induct with
  | const v => rfl
  | param name => exact h name (mem_subtrees_self _)
  | unary op x ih =>
    rw [rebuild, rebuild, ih fun name hx => h name (mem_subtrees_of_child (by simp [children]) hx)]
  | binary op l r ihl ihr | logical op l r ihl ihr =>
    rw [rebuild, rebuild,
      ihl fun name hl => h name (mem_subtrees_of_child (by simp [children]) hl),
      ihr fun name hr => h name (mem_subtrees_of_child (by simp [children]) hr)]
  | call name args ih =>
    rw [rebuild_call, rebuild_call, List.map_congr_left fun a ha =>
      ih a ha fun name hname => h name (mem_subtrees_of_child ha hname)]

/-! ## Depth -/

/-- No leaf is less deep than another one. -/
theorem depth_le_depth_rebuild (e : Expr) : e.depth ≤ (e.rebuild c p f).depth := by
  induction e using Expr.induct with
  | const v => exact depth_pos _
  | param name => exact depth_pos _
  | unary op x ih =>
    rw [rebuild, depth, depth]
    omega
  | binary op l r ihl ihr | logical op l r ihl ihr =>
    rw [rebuild, depth, depth]
    omega
  | call name args ih =>
    rw [rebuild_call, depth, depth]
    have hargs : depthAll args ≤ depthAll (args.map (rebuild c p f)) :=
      depthAll_le_iff.2 fun e he =>
        Nat.le_trans (ih e he) (depth_le_depthAll (List.mem_map_of_mem he))
    omega

variable {c p f}

/-- **A tree grows no deeper than its leaves do.** -/
theorem depth_rebuild_le {k : Nat} (hc : ∀ v, (c v).depth ≤ 1 + k)
    (hp : ∀ name, (p name).depth ≤ 1 + k) (e : Expr) :
    (e.rebuild c p f).depth ≤ e.depth + k := by
  induction e using Expr.induct with
  | const v => exact hc v
  | param name => exact hp name
  | unary op x ih =>
    rw [rebuild, depth, depth]
    omega
  | binary op l r ihl ihr | logical op l r ihl ihr =>
    rw [rebuild, depth, depth]
    omega
  | call name args ih =>
    rw [rebuild_call, depth, depth]
    have hargs : depthAll (args.map (rebuild c p f)) ≤ depthAll args + k := by
      refine depthAll_le_iff.2 (List.forall_mem_map.2 fun e he => ?_)
      have hdepth := depth_le_depthAll he
      have hgrown := ih e he
      omega
    omega

end

end Expr
end Enablement
