import Enablement.Proofs.Expr.Subtrees

/-!
# Expressions — places within a tree

One tree may stand in several places of another. A place is given by its
address, the numbers of the children on the way down to it (`Expr.at?`). Trees
are put in place of others at any number of addresses at once
(`Expr.replace`); where one address lies below another, what stands at the
upper one is replaced and the lower one is gone. So at an address below no
other one the new tree stands (`Expr.at?_replace`).
-/

namespace Enablement

/-- An address in a tree: the numbers of the children on the way down. -/
abbrev Address := List Nat

/-- Neither address lies below the other, nor are they one. -/
def Address.Apart (a b : Address) : Prop := ¬ a <+: b ∧ ¬ b <+: a

namespace Expr

/-- The tree at an address, if there is one. -/
def at? (e : Expr) : Address → Option Expr
  | [] => some e
  | i :: a => e.children[i]?.bind fun c => c.at? a

mutual

/-- The expression with other trees at the addresses that `f` has one for. -/
def replace : Expr → (Address → Option Expr) → Expr
  | .const v, f => (f []).getD (.const v)
  | .param name, f => (f []).getD (.param name)
  | .unary op x, f => (f []).getD (.unary op (replace x fun a => f (0 :: a)))
  | .binary op l r, f =>
    (f []).getD (.binary op (replace l fun a => f (0 :: a)) (replace r fun a => f (1 :: a)))
  | .logical op l r, f =>
    (f []).getD (.logical op (replace l fun a => f (0 :: a)) (replace r fun a => f (1 :: a)))
  | .call name args, f => (f []).getD (.call name (replaceFrom 0 args f))

/-- The same for the children of a node from the one with number `i` on. -/
def replaceFrom (i : Nat) : List Expr → (Address → Option Expr) → List Expr
  | [], _ => []
  | e :: es, f => replace e (fun a => f (i :: a)) :: replaceFrom (i + 1) es f

end

variable {e x : Expr} {f : Address → Option Expr} {a b : Address} {i : Nat}

/-- An address goes into one child and then on from there. -/
theorem at?_cons (e : Expr) (i : Nat) (a : Address) :
    e.at? (i :: a) = e.children[i]?.bind fun c => c.at? a := rfl

/-- Replacing in children is replacing in each, at addresses that start with its
number. -/
theorem replaceFrom_eq_map (i : Nat) (es : List Expr) (f : Address → Option Expr) :
    replaceFrom i es f = (es.zipIdx i).map fun c => c.1.replace fun a => f (c.2 :: a) := by
  induction es generalizing i with
  | nil => rfl
  | cons e es ih => rw [replaceFrom, ih, List.zipIdx_cons, List.map_cons]

/-- What is put in place of the whole is all. -/
theorem replace_of_root (h : f [] = some x) : e.replace f = x := by
  cases e <;> simp [replace, h]

/-- So it is in the arguments of a call, unless the call itself is replaced. -/
theorem replace_call (h : f [] = none) (name : String) (args : List Expr) :
    (call name args).replace f =
      .call name (args.zipIdx.map fun c => c.1.replace fun a => f (c.2 :: a)) := by
  rw [replace, h, Option.getD_none, replaceFrom_eq_map]

/-- Where the whole stays, the children are replaced one by one. -/
theorem children_replace (h : f [] = none) (e : Expr) :
    (e.replace f).children =
      e.children.zipIdx.map fun c => c.1.replace fun a => f (c.2 :: a) := by
  cases e <;> simp [replace, h, children, replaceFrom_eq_map]

/-- **Below no other address that is replaced**, a tree is what it was but for what is
replaced in it. -/
theorem at?_replace (h : ∀ a, a <+: b → a ≠ b → f a = none) :
    (e.replace f).at? b = (e.at? b).map fun x => x.replace fun a => f (b ++ a) := by
  induction b generalizing e f with
  | nil => rfl
  | cons i b ih =>
    have hroot : f [] = none := h [] List.nil_prefix (by simp)
    rw [at?_cons, children_replace hroot, List.getElem?_map, List.getElem?_zipIdx, at?_cons]
    cases e.children[i]? with
    | none => rfl
    | some c =>
      simp only [Option.map_some, Option.bind_some, Nat.zero_add, List.cons_append]
      refine ih fun a hab hne => h (i :: a) (List.cons_prefix_cons.2 ⟨rfl, hab⟩) fun hcons => ?_
      exact hne (List.cons.inj hcons).2

/-- With nothing to replace a tree is itself. -/
theorem replace_none (e : Expr) : (e.replace fun _ => none) = e := by
  induction e using induct with
  | const v => rfl
  | param name => rfl
  | unary op x ih => simp [replace, ih]
  | binary op l r ihl ihr => simp [replace, ihl, ihr]
  | logical op l r ihl ihr => simp [replace, ihl, ihr]
  | call name args ih =>
    have hargs : (args.zipIdx.map fun c => c.1.replace fun _ => none) = args.zipIdx.map (·.1) :=
      List.map_congr_left fun c hc => ih c.1 (List.fst_mem_of_mem_zipIdx hc)
    rw [replace_call rfl, hargs, List.zipIdx_map_fst]

end Expr
end Enablement
