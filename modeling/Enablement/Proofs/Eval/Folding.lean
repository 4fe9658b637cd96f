import Enablement.Proofs.Eval.Likeness
import Enablement.Proofs.Expr.Addresses
import Enablement.Proofs.Expr.Rebuilding

/-!
# Evaluation — values in place of trees

The results of the operands are all that a node looks at, so a tree may be
replaced by any other of the same result, wherever it stands and whether it is
come to or not (`Expr.eval_replace`). A tree with a value may be replaced by
that value, and with all its variables replaced an expression no longer asks
the document for anything (`Expr.eval_instantiate`). So what it comes to
depends on the document through the values of its variables alone.
-/

namespace Enablement
namespace Expr

variable {s t : Snapshot} {e x y l r l' r' : Expr} {f : Address → Option Expr}

/-! ## Trees of the same result -/

/-- Trees of one result are alike. -/
theorem agree_of_eval_eq (h : eval s x = eval t y) : Likeness.exact.Agree (eval s x) (eval t y) :=
  h ▸ .refl _

/-- A logical operator comes to the same over operands that come to the same. -/
theorem eval_logical_congr (op : LogicalOp) (hl : eval s l = eval s l')
    (hr : eval s r = eval s r') : eval s (.logical op l r) = eval s (.logical op l' r') :=
  (alike_logical op (agree_of_eval_eq hl) (agree_of_eval_eq hr)).eq

/-- And so does a call over arguments that come to the same. -/
theorem eval_call_congr (name : String) {ι : Type} {is : List ι} {g h : ι → Expr}
    (hargs : ∀ i ∈ is, eval s (g i) = eval s (h i)) :
    eval s (.call name (is.map g)) = eval s (.call name (is.map h)) :=
  (alike_call (E := .exact) rfl fun i hi => agree_of_eval_eq (hargs i hi)).eq

/-- What stands at the addresses has the results of what is put there. -/
def Keeps (s : Snapshot) (e : Expr) (f : Address → Option Expr) : Prop :=
  ∀ a x, f a = some x → ∃ y, e.at? a = some y ∧ eval s x = eval s y

/-- And so it does in each child. -/
theorem Keeps.child (h : Keeps s e f) {i : Nat} {c : Expr} (hc : e.children[i]? = some c) :
    Keeps s c fun a => f (i :: a) := by
  intro a x hx
  obtain ⟨y, hy, heval⟩ := h (i :: a) x hx
  rw [at?_cons, hc] at hy
  exact ⟨y, hy, heval⟩

/-- **Trees may be replaced by others of the same results**, at any addresses. -/
theorem eval_replace (h : Keeps s e f) : eval s (e.replace f) = eval s e := by
  induction e using induct_children generalizing f with
  | h e ih =>
    cases hroot : f [] with
    | some x =>
      obtain ⟨y, hy, heval⟩ := h [] x hroot
      obtain rfl := Option.some.inj hy
      rw [replace_of_root hroot, heval]
    | none =>
      -- the root is left as it is, and each child is replaced by the addresses that lead through it
      have hchild {i : Nat} {c : Expr} (hc : e.children[i]? = some c) :
          eval s (c.replace fun a => f (i :: a)) = eval s c :=
        ih c (List.mem_of_getElem? hc) (h.child hc)
      cases e with
      | const v | param name => rw [replace, hroot, Option.getD_none]
      | unary op x =>
        rw [replace, hroot, Option.getD_none, eval_unary, eval_unary, hchild (c := x) rfl]
      | binary op l r =>
        rw [replace, hroot, Option.getD_none, eval_binary, eval_binary, hchild (c := l) rfl,
          hchild (c := r) rfl]
      | logical op l r =>
        rw [replace, hroot, Option.getD_none]
        exact eval_logical_congr op (hchild rfl) (hchild rfl)
      | call name args =>
        have hargs : ∀ c ∈ args.zipIdx,
            eval s (c.1.replace fun a => f (c.2 :: a)) = eval s c.1 :=
          fun c hc => hchild (List.mem_zipIdx_iff_getElem?.1 hc)
        rw [replace_call hroot, eval_call_congr name hargs, List.zipIdx_map_fst]

/-! ## Values in place of trees -/

/-- The trees at the addresses may be folded: no address lies below another, and each is
that of a tree with a value. -/
structure Foldable (s : Snapshot) (e : Expr) (as : List Address) : Prop where
  /-- No address lies below another. -/
  disjoint : ∀ a ∈ as, ∀ b ∈ as, a <+: b → a = b
  /-- The tree at each address has a value. -/
  valued : ∀ a ∈ as, ∃ x v, e.at? a = some x ∧ eval s x = .ok v

/-- The constant that may stand for the tree at an address, if it has a value. -/
def constantAt (s : Snapshot) (e : Expr) (a : Address) : Option Expr :=
  (e.at? a).bind fun x => (eval s x).toOption.map .const

/-- The expression with the values of the trees at some addresses in their places. -/
def fold (s : Snapshot) (as : List Address) (e : Expr) : Expr :=
  e.replace fun a => if a ∈ as then constantAt s e a else none

/-- The expression with their values in place of the variables. -/
def instantiate (s : Snapshot) (e : Expr) : Expr :=
  e.rebuild .const (fun name => .const (s.lookup name)) id

variable {as : List Address} {a b : Address} {v : Value}

/-- The literal at a place is that of the value which the subtree there comes to. -/
theorem constantAt_eq (hx : e.at? a = some x) (hv : eval s x = .ok v) :
    constantAt s e a = some (.const v) := by
  rw [constantAt, hx, Option.bind_some, hv]
  rfl

/-- The constant for a tree has the result of the tree. -/
theorem keeps_constantAt (s : Snapshot) (e : Expr) : Keeps s e (constantAt s e) := by
  intro a x hx
  obtain ⟨y, hy, hconst⟩ := Option.bind_eq_some_iff.1 hx
  refine ⟨y, hy, ?_⟩
  cases hv : eval s y with
  | error f =>
    rw [hv] at hconst
    cases hconst
  | ok v =>
    rw [hv] at hconst
    obtain rfl := Option.some.inj hconst
    rfl

/-- **Folding changes no result.** -/
theorem eval_fold (s : Snapshot) (as : List Address) (e : Expr) :
    eval s (e.fold s as) = eval s e := by
  refine eval_replace fun a x hx => ?_
  split at hx
  · exact keeps_constantAt s e a x hx
  · cases hx

/-- At each of the addresses its value stands. -/
theorem Foldable.at?_fold (h : e.Foldable s as) (ha : a ∈ as) :
    ∃ x v, e.at? a = some x ∧ eval s x = .ok v ∧ (e.fold s as).at? a = some (.const v) := by
  obtain ⟨x, v, hx, hv⟩ := h.valued a ha
  refine ⟨x, v, hx, hv, ?_⟩
  rw [fold, at?_replace fun b hb hne => if_neg fun hmem => hne (h.disjoint b hmem a ha hb), hx,
    Option.map_some, replace_of_root]
  rw [List.append_nil, if_pos ha, constantAt_eq hx hv]

/-- And apart from them all stays as it is. -/
theorem at?_fold_of_apart (s : Snapshot) (h : ∀ a ∈ as, a.Apart b) :
    (e.fold s as).at? b = e.at? b := by
  have habove : ∀ a, a <+: b → a ≠ b → (if a ∈ as then constantAt s e a else none) = none :=
    fun a hab _ => if_neg fun ha => (h a ha).1 hab
  have hbelow : ∀ a, (if b ++ a ∈ as then constantAt s e (b ++ a) else none) = none :=
    fun a => if_neg fun ha => (h (b ++ a) ha).2 (List.prefix_append b a)
  rw [fold, at?_replace habove]
  simp only [hbelow, replace_none, Option.map_id']

/-! ## Values in place of variables -/

/-- **With its variables replaced, an expression no longer depends on the document.** -/
theorem eval_instantiate (s t : Snapshot) (e : Expr) :
    eval t (e.instantiate s) = eval s e := by
  have hagree : Likeness.exact.Agree (eval s e) (eval t (e.instantiate s)) :=
    alike_rebuild (fun _ _ => .refl _) (fun _ _ => .refl _) (fun _ _ => rfl) e.builtFrom_any
  exact hagree.eq.symm

/-- And so only the values of its own variables count. -/
theorem eval_eq_of_lookup_eq
    (h : ∀ name, param name ∈ e.subtrees → t.lookup name = s.lookup name) :
    eval t e = eval s e := by
  have hsame : e.instantiate t = e.instantiate s :=
    rebuild_congr _ _ _ fun name hname => by rw [h name hname]
  rw [← eval_instantiate t s, hsame, eval_instantiate]

/-- **Folding changes no result.** Where trees with values, none within another, are
replaced by their values, the expression has the value or the fault that it had; their
values stand in their places, and what is apart from them stays. With the values of
its variables in their places it has this result on every document. And so it has
one result on all documents on which its variables have the same values. -/
theorem folding_changes_no_result (s : Snapshot) (e : Expr) :
    (∀ as, e.Foldable s as →
        eval s (e.fold s as) = eval s e ∧
          (∀ a ∈ as, ∃ x v, e.at? a = some x ∧ eval s x = .ok v ∧
            (e.fold s as).at? a = some (.const v)) ∧
          ∀ b, (∀ a ∈ as, a.Apart b) → (e.fold s as).at? b = e.at? b) ∧
      (∀ t, eval t (e.instantiate s) = eval s e) ∧
      ∀ t, (∀ name, param name ∈ e.subtrees → t.lookup name = s.lookup name) →
        eval t e = eval s e := by
  refine ⟨fun as h => ⟨eval_fold s as e, fun a ha => h.at?_fold ha, fun b hb => ?_⟩,
    fun t => eval_instantiate s t e, fun t h => eval_eq_of_lookup_eq h⟩
  exact at?_fold_of_apart s hb

/-- A mark may be folded, and so may an argument in an operand that is not come to. The
height of the image is nothing to an expression that asks for the width alone. -/
theorem folding_mark_and_skipped_argument_changes_no_result :
    eval ⟨640, 480, .rgb, false, 3, 3, false, true⟩
        (fold ⟨640, 480, .rgb, false, 3, 3, false, true⟩ [[0], [1, 0]]
          (.logical .and (.unary .negate (.param "x"))
            (.call "in" [.param "PSHOP_ImageWidth", .binary .divide (.const (.integer 1))
              (.const (.integer 0))]))) =
        .ok (.boolean false) ∧
      eval ⟨640, 1, .rgb, false, 3, 3, false, true⟩ (.param "PSHOP_ImageWidth") =
        eval ⟨640, 480, .rgb, false, 3, 3, false, true⟩ (.param "PSHOP_ImageWidth") := by
  constructor
  · refine ((folding_changes_no_result _ _).1 _ ⟨?_, ?_⟩).1
    · decide
    · exact List.forall_mem_cons.2 ⟨⟨.unary .negate (.param "x"), .undefined "x", rfl, rfl⟩,
        List.forall_mem_cons.2 ⟨⟨.param "PSHOP_ImageWidth", .integer 640, rfl, rfl⟩, nofun⟩⟩
  · refine (folding_changes_no_result _ _).2.2 _ fun name hname => ?_
    obtain rfl : name = "PSHOP_ImageWidth" := by simpa [subtrees] using hname
    rfl

end Expr
end Enablement
