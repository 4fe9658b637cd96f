import Enablement.Proofs.Eval.Steps
import Enablement.Proofs.Expr.Subtrees

/-!
# Evaluation — where a fault comes from

The fault of an expression is raised by one node in it and handed up by all
nodes above. What a node raises by itself is little (`Expr.Raises`): an
operator whose operands have values, but of the wrong kinds, a division by
zero, and a call of a function that does not exist. Nothing else makes a
fault, and nothing on the way up changes it (`Expr.exists_raises`).
-/

namespace Enablement

/-- The kind of the operands that an operator is made for, by its symbol. -/
def Symbol.operandKind : Symbol → ValueKind
  | .not => .boolean
  | _ => .integer

/-- The symbol of a one-place operator tells which operand it takes. -/
theorem UnaryOp.operandKind_symbol (op : UnaryOp) : op.symbol.operandKind = op.operandKind := by
  cases op <;> rfl

/-- And that of a two-place operator tells that it takes integers. -/
theorem BinaryOp.operandKind_symbol (op : BinaryOp) : op.symbol.operandKind = .integer := by
  cases op <;> rfl

namespace Expr

/-- **What a node raises by itself**, though its operands have values. -/
inductive Raises (s : Snapshot) : Expr → Fault → Prop
  /-- An operator before an operand of another kind than it takes. -/
  | unary {op : UnaryOp} {x : Expr} {v : Value} :
      eval s x = .ok v → v.kind ≠ .undefined → v.kind ≠ op.symbol.operandKind →
      Raises s (.unary op x) (.typeMismatch op.symbol op.symbol.operandKind v.kind)
  /-- An operator, not one for equality, on two values of which the leftmost that
  it does not take is at fault. -/
  | binary {op : BinaryOp} {l r : Expr} {v w : Value} {got : ValueKind} :
      op ≠ .eq → op ≠ .ne → eval s l = .ok v → eval s r = .ok w →
      v.kind ≠ .undefined → w.kind ≠ .undefined →
      [v.kind, w.kind].find? (· != op.symbol.operandKind) = some got →
      Raises s (.binary op l r) (.typeMismatch op.symbol op.symbol.operandKind got)
  /-- A division of an integer by zero. -/
  | divide {l r : Expr} {a : Int32} :
      eval s l = .ok (.integer a) → eval s r = .ok (.integer 0) →
      Raises s (.binary .divide l r) .divisionByZero
  /-- A call by a name that no function has. -/
  | call {name : String} {args : List Expr} :
      Builtin.ofName? name = none → Raises s (.call name args) (.unknownFunction name)

variable {s : Snapshot} {e : Expr} {f : Fault}

/-- Only three kinds of faults are raised. -/
theorem Raises.cases_fault (h : Raises s e f) :
    (∃ op expected got, f = .typeMismatch op expected got) ∨ f = .divisionByZero ∨
      ∃ name, f = .unknownFunction name := by
  cases h with
  | unary => exact .inl ⟨_, _, _, rfl⟩
  | binary => exact .inl ⟨_, _, _, rfl⟩
  | divide => exact .inr (.inl rfl)
  | call => exact .inr (.inr ⟨_, rfl⟩)

/-- **One step up**: the fault of a node is raised by the node itself or is that
of a child. -/
theorem raises_or_child (h : eval s e = .error f) :
    Raises s e f ∨ ∃ c ∈ e.children, eval s c = .error f := by
  cases e with
  | const v => cases h
  | param name =>
    rw [eval_param] at h
    cases h
  | unary op x =>
    obtain ⟨f', hx, he⟩ | ⟨v, hx, hgives⟩ := eval_unary_cases s op x
    · obtain rfl := Except.error.inj (he.symm.trans h)
      exact .inr ⟨x, by simp [children], hx⟩
    -- both operands have values, so the operator itself raises the fault
    · rw [h] at hgives
      cases hgives with
      | mismatch hmark hkind =>
        rw [← op.operandKind_symbol] at hkind ⊢
        exact .inl (.unary hx hmark hkind)
  | binary op l r =>
    obtain ⟨f', hl, he⟩ | ⟨f', hr, he⟩ | ⟨v, w, hl, hr, hgives⟩ := eval_binary_cases s op l r
    · obtain rfl := Except.error.inj (he.symm.trans h)
      exact .inr ⟨l, by simp [children], hl⟩
    · obtain rfl := Except.error.inj (he.symm.trans h)
      exact .inr ⟨r, by simp [children], hr⟩
    · rw [h] at hgives
      cases hgives with
      | zero hop hv hw =>
        subst hop hv hw
        exact .inl (.divide hl hr)
      | mismatch hv hw htakes hgot =>
        rw [BinaryOp.Takes, not_or, not_or] at htakes
        rw [← op.operandKind_symbol] at hgot ⊢
        exact .inl (.binary htakes.1.1 htakes.1.2 hl hr hv hw hgot)
  | logical op l r =>
    -- the connectives and the known functions raise nothing themselves: they only pass faults on
    have hsoft := soft_eval_logical s op l r
    rw [h] at hsoft
    cases hsoft with
    | fault hmem => exact .inr (by simpa [children, eq_comm] using hmem)
  | call name args =>
    cases hname : Builtin.ofName? name with
    | none =>
      rw [eval_call_unknown s hname args] at h
      obtain rfl := Except.error.inj h
      exact .inl (.call hname)
    | some b =>
      have hsoft := soft_eval_call s hname args
      rw [h] at hsoft
      cases hsoft with
      | fault hmem => exact .inr (List.mem_map.1 hmem)

/-- **Every fault is raised by a node**, and handed up unchanged from there. -/
theorem exists_raises (h : eval s e = .error f) :
    ∃ t ∈ e.subtrees, eval s t = .error f ∧ Raises s t f := by
  induction e using induct_children with
  | h e ih =>
    obtain hraises | ⟨c, hc, hfault⟩ := raises_or_child h
    · exact ⟨e, e.mem_subtrees_self, h, hraises⟩
    · obtain ⟨t, ht, htfault, hraises⟩ := ih c hc hfault
      exact ⟨t, mem_subtrees_of_child hc ht, htfault, hraises⟩

/-- **The origin of a fault.** If an expression ends in a fault, the fault is a
mismatch of kinds, a division by zero or an unknown function, and it is that of
a tree within the expression whose root raises it. -/
theorem fault_has_origin (s : Snapshot) (e : Expr) (f : Fault) (h : eval s e = .error f) :
    ((∃ op expected got, f = .typeMismatch op expected got) ∨ f = .divisionByZero ∨
        ∃ name, f = .unknownFunction name) ∧
      ∃ t ∈ e.subtrees, eval s t = .error f ∧ Raises s t f := by
  obtain ⟨t, ht, hfault, hraises⟩ := exists_raises h
  exact ⟨hraises.cases_fault, t, ht, hfault, hraises⟩

/-- The greatest of a number and a negated text is the fault that the minus sign
raises. -/
theorem negated_text_in_call_has_origin :
    ∃ t ∈ (call "max" [.const (.integer 1), .unary .negate (.const (.string "a"))]).subtrees,
      eval ⟨640, 480, .rgb, false, 3, 3, false, true⟩ t =
          .error (.typeMismatch .minus .integer .string) ∧
        Raises ⟨640, 480, .rgb, false, 3, 3, false, true⟩ t
          (.typeMismatch .minus .integer .string) :=
  (fault_has_origin ⟨640, 480, .rgb, false, 3, 3, false, true⟩
    (.call "max" [.const (.integer 1), .unary .negate (.const (.string "a"))])
    (.typeMismatch .minus .integer .string) rfl).2

end Expr
end Enablement
