import Enablement.Proofs.Eval.Steps

/-!
# Evaluation — a chain of one logical operator

The operands of `a && b && c` may be bracketed in several ways
(`Expr.Brackets`). A node goes on to its right operand if the left one is the
truth value that settles nothing, and else the left one has settled the matter
(`LogicalOp.join`). So a chain is gone through up to the first operand that
settles it, and brackets change nothing, unless this operand is no truth value:
the node that it stands in is then false. With `&&` this settles the nodes
around it too, but with `||` they go on to their right operands.
-/

namespace Enablement

/-- A truth value as it is, and false for all that is none. -/
def Value.orFalse : Value → Value
  | .boolean b => .boolean b
  | _ => .boolean false

/-- What has been made a truth value stays the same. -/
@[simp] theorem Value.orFalse_orFalse (v : Value) : v.orFalse.orFalse = v.orFalse := by
  cases v <;> rfl

/-- And is one. -/
theorem Value.kind_orFalse (v : Value) : v.orFalse.kind = .boolean := by
  cases v <;> rfl

namespace LogicalOp

variable {op : LogicalOp} {v : Value} {l r r' : Except Fault Value}
  {rs : List (Except Fault Value)}

/-! ## Results joined by an operator -/

/-- The left operand that leaves the matter to the right one. -/
def unsettled (op : LogicalOp) : Value := .boolean !op.settledBy

/-- The result of a logical operator, from those of its operands. -/
def join (op : LogicalOp) (l r : Except Fault Value) : Except Fault Value :=
  l >>= fun v => if v = op.unsettled then r.map Value.orFalse else .ok v.orFalse

/-- An operand that settles nothing leaves the matter to the other. -/
theorem join_unsettled (op : LogicalOp) (r : Except Fault Value) :
    op.join (.ok op.unsettled) r = r.map Value.orFalse := if_pos rfl

/-- Any other leaves it alone, also one that is no truth value. -/
theorem join_settled (h : v ≠ op.unsettled) (r : Except Fault Value) :
    op.join (.ok v) r = .ok v.orFalse := if_neg h

/-- Two operands come to a truth value. -/
theorem kind_of_join (h : op.join l r = .ok v) : v.kind = .boolean := by
  cases l with
  | error f => cases h
  | ok u =>
    by_cases hu : u = op.unsettled
    · rw [hu, join_unsettled] at h
      cases r with
      | error f => cases h
      | ok w => exact Except.ok.inj h ▸ w.kind_orFalse
    · rw [join_settled hu] at h
      exact Except.ok.inj h ▸ u.kind_orFalse

/-- A result with which brackets do not matter in front of the last place of a chain: the
operator is `&&`, or it is a truth value or a fault. -/
def Suits (op : LogicalOp) (r : Except Fault Value) : Prop :=
  op = .and ∨ ∀ v, r = .ok v → v.kind = .boolean

/-- False in place of a value that suits the operator settles what the value settles. -/
theorem Suits.orFalse_eq_iff (h : op.Suits (.ok v)) :
    v.orFalse = op.unsettled ↔ v = op.unsettled := by
  rcases h with rfl | hv
  · cases v <;> simp [Value.orFalse, unsettled, settledBy]
  · obtain ⟨b, rfl⟩ := Value.kind_eq_boolean_iff.1 (hv v rfl)
    rfl

/-- And so it may be put there before or after the operator is applied. -/
theorem Suits.join_map_orFalse (h : op.Suits l) (r : Except Fault Value) :
    op.join (l.map Value.orFalse) r = (op.join l r).map Value.orFalse := by
  cases l with
  | error f => rfl
  | ok v =>
    change op.join (.ok v.orFalse) r = _
    by_cases hv : v = op.unsettled
    · rw [h.orFalse_eq_iff.2 hv, hv, join_unsettled]
      cases r with
      | error f => rfl
      | ok w => exact congrArg Except.ok w.orFalse_orFalse.symm
    · rw [join_settled (mt h.orFalse_eq_iff.1 hv), join_settled hv]
      rfl

/-- **Brackets may be moved** behind results that suit the operator. -/
theorem join_assoc (hl : op.Suits l) (hr : op.Suits r) (r' : Except Fault Value) :
    op.join (op.join l r) r' = op.join l (op.join r r') := by
  cases l with
  | error f => rfl
  | ok v =>
    by_cases hv : v = op.unsettled
    · rw [hv, join_unsettled, join_unsettled, hr.join_map_orFalse]
    · rw [join_settled hv, join_settled hv, join_settled (mt hl.orFalse_eq_iff.1 hv),
        Value.orFalse_orFalse]

/-- All results of a chain joined suit the operator if the last one does. -/
theorem Suits.foldr (h : op.Suits r) (rs : List (Except Fault Value)) :
    op.Suits (rs.foldr op.join r) := by
  cases rs with
  | nil => exact h
  | cons l rs => exact .inr fun _ => kind_of_join

/-- **A chain may be bracketed to the right.** -/
theorem join_foldr (hrs : ∀ l ∈ rs, op.Suits l) (hr : op.Suits r) (r' : Except Fault Value) :
    op.join (rs.foldr op.join r) r' = (rs ++ [r]).foldr op.join r' := by
  induction rs with
  | nil => rfl
  | cons l rs ih =>
    obtain ⟨hl, hrs⟩ := List.forall_mem_cons.1 hrs
    rw [List.foldr_cons, join_assoc hl (hr.foldr rs), ih hrs]
    rfl

end LogicalOp

namespace Expr

variable {s : Snapshot} {op : LogicalOp} {e e' : Expr} {es : List Expr}

/-! ## Chains of operands -/

/-- The tree is a chain of the operands under one logical operator, with brackets in
some way. -/
inductive Brackets (op : LogicalOp) : List Expr → Expr → Prop
  /-- One operand is a chain. -/
  | operand (e : Expr) : Brackets op [e] e
  /-- And so is the operator between two chains. -/
  | node {as bs : List Expr} {l r : Expr} :
      Brackets op as l → Brackets op bs r → Brackets op (as ++ bs) (.logical op l r)

/-- **A logical operator joins the results of its operands.** -/
theorem eval_logical (s : Snapshot) (op : LogicalOp) (l r : Expr) :
    eval s (.logical op l r) = op.join (eval s l) (eval s r) := by
  rw [eval, run, LogicalOp.apply, Logged.result_bind, ← eval, LogicalOp.join]
  -- both sides go by the value of the left operand
  refine bind_congr fun v => ?_
  cases v with
  | boolean a =>
    by_cases ha : a = op.settledBy
    · have hsettled : Value.boolean a ≠ op.unsettled := by simp [ha, LogicalOp.unsettled]
      rw [if_neg hsettled]
      simp only [if_pos ha]
      rfl
    · rw [LogicalOp.unsettled, ← Bool.eq_not.2 ha, if_pos rfl]
      simp only [if_neg ha, Logged.result_bind]
      change eval s r >>= _ = _
      cases eval s r with
      | error f => rfl
      | ok w => cases w <;> rfl
  | _ => rfl

/-- **A chain joins the results of its operands from the right**, if those before the last
suit the operator. -/
theorem Brackets.eval_eq (h : Brackets op es e) :
    ∃ as a, es = as ++ [a] ∧ ((∀ x ∈ as, op.Suits (eval s x)) →
      eval s e = (as.map (eval s)).foldr op.join (eval s a)) := by
  induction h with
  | operand e => exact ⟨[], e, rfl, fun _ => rfl⟩
  | @node _ _ l r _ _ ihl ihr =>
    obtain ⟨as, a, rfl, hl⟩ := ihl
    obtain ⟨bs, b, rfl, hr⟩ := ihr
    refine ⟨as ++ [a] ++ bs, b, (List.append_assoc _ _ _).symm, fun hsuits => ?_⟩
    -- the last operand on the left is not the last of the whole, so it has to suit as well
    obtain ⟨hfirst, hbs⟩ := List.forall_mem_append.1 hsuits
    obtain ⟨has, ha⟩ := List.forall_mem_append.1 hfirst
    have hasuits : ∀ l ∈ as.map (eval s), op.Suits l := List.forall_mem_map.2 has
    rw [eval_logical, hl has, hr hbs, LogicalOp.join_foldr hasuits (ha a (by simp)),
      List.map_append, List.map_append]
    exact List.foldr_append.symm

/-- And so it is the same chain with any brackets. -/
theorem Brackets.eval_eq_eval (h : Brackets op es e) (h' : Brackets op es e')
    (hsuits : ∀ x ∈ es.dropLast, op.Suits (eval s x)) : eval s e = eval s e' := by
  obtain ⟨as, a, rfl, heval⟩ := h.eval_eq (s := s)
  obtain ⟨as', a', heq, heval'⟩ := h'.eval_eq (s := s)
  obtain ⟨rfl, rfl⟩ := List.append_singleton_inj.1 heq
  rw [List.dropLast_concat] at hsuits
  rw [heval hsuits, heval' hsuits]

/-- **Brackets do not matter.** A chain of `&&` has one result, a value or a fault, in
whatever way it is bracketed and whatever its operands come to. So has a chain of `||` if
each of its operands but the last comes to a truth value or ends in a fault. -/
theorem brackets_change_no_result (s : Snapshot) (es : List Expr) (e e' : Expr) :
    (Brackets .and es e → Brackets .and es e' → eval s e = eval s e') ∧
      (Brackets .or es e → Brackets .or es e' →
        (∀ x ∈ es.dropLast, (∃ b, eval s x = .ok (.boolean b)) ∨ ∃ f, eval s x = .error f) →
          eval s e = eval s e') := by
  refine ⟨fun h h' => h.eval_eq_eval h' fun _ _ => .inl rfl, fun h h' hoperands => ?_⟩
  refine h.eval_eq_eval h' fun x hx => .inr fun v hv => ?_
  rcases hoperands x hx with ⟨b, hb⟩ | ⟨f, hf⟩
  · rw [hv] at hb
    exact Value.kind_eq_boolean_iff.2 ⟨b, Except.ok.inj hb⟩
  · rw [hv] at hf
    cases hf

/-- A number ends a chain of `&&` before a division by zero is come to, in whatever way
brackets stand; and a chain of `||` with a text in the last place has the fault of such a
division before it. -/
theorem brackets_around_number_and_text_change_no_result :
    eval ⟨640, 480, .rgb, false, 3, 3, false, true⟩
        (.logical .and (.logical .and (.const (.boolean true)) (.const (.integer 5)))
          (.binary .divide (.const (.integer 1)) (.const (.integer 0)))) =
      eval ⟨640, 480, .rgb, false, 3, 3, false, true⟩
        (.logical .and (.const (.boolean true)) (.logical .and (.const (.integer 5))
          (.binary .divide (.const (.integer 1)) (.const (.integer 0))))) ∧
    eval ⟨640, 480, .rgb, false, 3, 3, false, true⟩
        (.logical .or (.logical .or (.const (.boolean false))
          (.binary .divide (.const (.integer 1)) (.const (.integer 0)))) (.const (.string "a"))) =
      eval ⟨640, 480, .rgb, false, 3, 3, false, true⟩
        (.logical .or (.const (.boolean false))
          (.logical .or (.binary .divide (.const (.integer 1)) (.const (.integer 0)))
            (.const (.string "a")))) := by
  have hleft (op : LogicalOp) (a b c : Expr) :
      Brackets op ([a] ++ [b] ++ [c]) (.logical op (.logical op a b) c) :=
    .node (.node (.operand a) (.operand b)) (.operand c)
  have hright (op : LogicalOp) (a b c : Expr) :
      Brackets op ([a] ++ ([b] ++ [c])) (.logical op a (.logical op b c)) :=
    .node (.operand a) (.node (.operand b) (.operand c))
  constructor
  · exact (brackets_change_no_result _ _ _ _).1 (hleft _ _ _ _) (hright _ _ _ _)
  · refine (brackets_change_no_result _ _ _ _).2 (hleft _ _ _ _) (hright _ _ _ _) ?_
    exact List.forall_mem_cons.2
      ⟨.inl ⟨false, rfl⟩, List.forall_mem_cons.2 ⟨.inr ⟨_, rfl⟩, nofun⟩⟩

/-- Elsewhere than in the last place a number makes a difference to `||`. -/
example :
    eval ⟨640, 480, .rgb, false, 3, 3, false, true⟩
        (.logical .or (.logical .or (.const (.integer 5)) (.const (.boolean true)))
          (.const (.boolean true))) = .ok (.boolean true) ∧
      eval ⟨640, 480, .rgb, false, 3, 3, false, true⟩
        (.logical .or (.const (.integer 5)) (.logical .or (.const (.boolean true))
          (.const (.boolean true)))) = .ok (.boolean false) := ⟨rfl, rfl⟩

end Expr
end Enablement
