import Enablement.Proofs.Eval.Origins

/-!
# Evaluation — the kind of an expression

What kind of value an expression has can be told without a document
(`Expr.kind?`), as every variable has one kind and every operator and function
gives one. An expression with a kind has a value of that kind on every
document, or else a division in it is by zero: whatever else could be raised
contradicts the kinds of the operands. A strict expression without a kind ends
in a fault on every document, since nothing can keep a mismatch from being
found.
-/

namespace Enablement

/-! ## The kinds that operators make -/

/-- The kind that an operator makes of an operand of a kind, if it takes it. A
mark stays one. -/
def UnaryOp.kind? : UnaryOp → ValueKind → Option ValueKind
  | _, .undefined => some .undefined
  | .not, .boolean => some .boolean
  | .negate, .integer | .plus, .integer => some .integer
  | .not, .integer | .not, .string => none
  | .negate, .boolean | .negate, .string | .plus, .boolean | .plus, .string => none

/-- The kind that an operator makes of operands of two kinds, if it takes them. A
mark makes a mark of any other. -/
def BinaryOp.kind? (op : BinaryOp) : ValueKind → ValueKind → Option ValueKind
  | .undefined, _ | _, .undefined => some .undefined
  | .integer, .integer => some op.resultKind
  | _, _ => if op = .eq ∨ op = .ne then some .boolean else none

namespace UnaryOp

variable {op : UnaryOp} {k : ValueKind} {v w : Value}

/-- An operand of another kind than the operator takes gives nothing, unless it is the
mark. -/
theorem kind?_eq_none (hmark : k ≠ .undefined) (hkind : k ≠ op.operandKind) :
    op.kind? k = none := by
  cases k with
  | undefined => exact absurd rfl hmark
  | boolean =>
    cases op with
    | not => exact absurd rfl hkind
    | negate | plus => rfl
  | integer =>
    cases op with
    | not => rfl
    | negate | plus => exact absurd rfl hkind
  | string => cases op <;> rfl

/-- What an operator gives is of the kind that it makes. -/
theorem Gives.kind?_eq (h : op.Gives v (.ok w)) : op.kind? v.kind = some w.kind := by
  cases h with
  | mark hv => rw [hv, kind?]
  | value hv hw =>
    rw [hv, hw]
    cases op <;> rfl

end UnaryOp

namespace BinaryOp

variable {op : BinaryOp} {k j : ValueKind} {l r v : Value}

/-- A mark on the right is handed on. -/
theorem kind?_undefined_right (op : BinaryOp) (k : ValueKind) :
    op.kind? k .undefined = some .undefined := by
  cases k <;> rfl

/-- Operands that the operator takes give a value of its kind. -/
theorem kind?_of_takes (hk : k ≠ .undefined) (hj : j ≠ .undefined) (h : op.Takes k j) :
    op.kind? k j = some op.resultKind := by
  rcases h with hop | ⟨rfl, rfl⟩
  · have hresult : op.resultKind = .boolean := by rcases hop with rfl | rfl <;> rfl
    cases k with
    | undefined => exact absurd rfl hk
    | _ =>
      cases j with
      | undefined => exact absurd rfl hj
      | _ => simp [kind?, hop, hresult]
  · rfl

/-- And other operands give nothing, if neither is the mark. -/
theorem kind?_eq_none (hk : k ≠ .undefined) (hj : j ≠ .undefined) (h : ¬ op.Takes k j) :
    op.kind? k j = none := by
  obtain ⟨hop, hint⟩ := not_or.1 h
  cases k with
  | undefined => exact absurd rfl hk
  | _ =>
    cases j with
    | undefined => exact absurd rfl hj
    | _ => simp_all [kind?]

/-- What an operator gives is of the kind that it makes. -/
theorem Gives.kind?_eq (h : op.Gives l r (.ok v)) : op.kind? l.kind r.kind = some v.kind := by
  cases h with
  | left hl => rw [hl, kind?]
  | right _ hr => rw [hr, kind?_undefined_right]
  | value hl hr htakes hv => rw [kind?_of_takes hl hr htakes, hv]

end BinaryOp

/-- The kind of a variable is known from its name alone. -/
theorem Snapshot.kind_lookup (s : Snapshot) (name : String) :
    (s.lookup name).kind = (Variable.ofName? name).elim .undefined Variable.kind := by
  unfold lookup
  split
  next x hx => rw [kind_get, hx, Option.elim_some]
  next hx => rw [hx, Option.elim_none, Value.kind]

/-! ## The kind of an expression -/

namespace Expr

mutual

/-- **The kind of the values of an expression**, whatever the document is, if all
its operands and arguments have kinds and are taken. -/
def kind? : Expr → Option ValueKind
  | .const v => some v.kind
  | .param name => some ((Variable.ofName? name).elim .undefined Variable.kind)
  | .unary op x => do op.kind? (← kind? x)
  | .binary op l r => do op.kind? (← kind? l) (← kind? r)
  | .logical _ l r => if (kind? l).isSome ∧ (kind? r).isSome then some .boolean else none
  | .call name args => do
    let f ← Builtin.ofName? name
    if allKinded args then some f.resultKind else none

/-- Whether all of some expressions have kinds. -/
def allKinded : List Expr → Bool
  | [] => true
  | e :: es => (kind? e).isSome && allKinded es

end

variable {s : Snapshot} {c e t : Expr} {k : ValueKind} {v : Value} {f : Fault}

/-- Arguments have kinds just if each of them has one. -/
theorem allKinded_iff {es : List Expr} :
    allKinded es = true ↔ ∀ e ∈ es, e.kind?.isSome = true := by
  induction es with
  | nil => simp [allKinded]
  | cons e es ih => rw [allKinded, Bool.and_eq_true, ih, List.forall_mem_cons]

/-- An expression with a kind has only such children. -/
theorem isSome_kind?_child (h : e.kind?.isSome = true) (hc : c ∈ e.children) :
    c.kind?.isSome = true := by
  obtain ⟨k, hk⟩ := Option.isSome_iff_exists.1 h
  cases e with
  | const | param => cases hc
  | unary op x =>
    obtain ⟨j, hx, -⟩ := Option.bind_eq_some_iff.1 hk
    obtain rfl := List.mem_singleton.1 hc
    rw [hx, Option.isSome_some]
  | binary op l r =>
    obtain ⟨i, hl, hk⟩ := Option.bind_eq_some_iff.1 hk
    obtain ⟨j, hr, -⟩ := Option.bind_eq_some_iff.1 hk
    rcases (show c = l ∨ c = r by simpa [children] using hc) with rfl | rfl
    · rw [hl, Option.isSome_some]
    · rw [hr, Option.isSome_some]
  | logical op l r =>
    rw [kind?, Option.ite_none_right_eq_some] at hk
    rcases (show c = l ∨ c = r by simpa [children] using hc) with rfl | rfl
    · exact hk.1.1
    · exact hk.1.2
  | call name args =>
    obtain ⟨b, -, hk⟩ := Option.bind_eq_some_iff.1 hk
    rw [Option.ite_none_right_eq_some] at hk
    exact allKinded_iff.1 hk.1 c hc

/-- And so has everything within it. -/
theorem isSome_kind?_subtree (h : e.kind?.isSome = true) (ht : t ∈ e.subtrees) :
    t.kind?.isSome = true := by
  induction e using induct_children with
  | h e ih =>
    rcases mem_subtrees_iff.1 ht with rfl | ⟨c, hc, ht⟩
    · exact h
    · exact ih c hc (isSome_kind?_child h hc) ht

/-! ## Values are of the kind -/

/-- **A value is of the kind of its expression.** -/
theorem kind_of_kind? (hk : e.kind? = some k) (hv : eval s e = .ok v) : v.kind = k := by
  induction e using induct generalizing k v with
  | const w =>
    obtain rfl := Except.ok.inj hv
    exact Option.some.inj hk
  | param name =>
    rw [eval_param] at hv
    obtain rfl := Except.ok.inj hv
    rw [s.kind_lookup]
    exact Option.some.inj hk
  | unary op x ih =>
    obtain ⟨j, hx, hop⟩ := Option.bind_eq_some_iff.1 hk
    obtain ⟨w, hw, hgives⟩ := eval_unary_eq_ok hv
    -- the kind that the operator makes of the operands' values is the one found from their kinds
    have hmade := hgives.kind?_eq
    rw [ih hx hw, hop] at hmade
    exact (Option.some.inj hmade).symm
  | binary op l r ihl ihr =>
    obtain ⟨i, hl, hk⟩ := Option.bind_eq_some_iff.1 hk
    obtain ⟨j, hr, hop⟩ := Option.bind_eq_some_iff.1 hk
    obtain ⟨u, w, hu, hw, hgives⟩ := eval_binary_eq_ok hv
    have hmade := hgives.kind?_eq
    rw [ihl hl hu, ihr hr hw, hop] at hmade
    exact (Option.some.inj hmade).symm
  | logical op l r _ _ =>
    -- a connective and a call have kinds of their own, whatever their operands give
    rw [kind_of_eval_logical hv]
    rw [kind?, Option.ite_none_right_eq_some] at hk
    exact Option.some.inj hk.2
  | call name args _ =>
    obtain ⟨b, hname, hk⟩ := Option.bind_eq_some_iff.1 hk
    obtain ⟨b', hname', hkind⟩ := kind_of_eval_call hv
    obtain rfl := Option.some.inj (hname.symm.trans hname')
    rw [hkind]
    rw [Option.ite_none_right_eq_some] at hk
    exact Option.some.inj hk.2

/-- **A strict expression with a value has a kind.** -/
theorem IsStrict.kind?_eq (he : e.IsStrict) (hv : eval s e = .ok v) : e.kind? = some v.kind := by
  induction he generalizing v with
  | const =>
    obtain rfl := Except.ok.inj hv
    rfl
  | @param name =>
    rw [eval_param] at hv
    obtain rfl := Except.ok.inj hv
    rw [s.kind_lookup, kind?]
  | unary _ ih =>
    obtain ⟨w, hw, hgives⟩ := eval_unary_eq_ok hv
    rw [kind?, ih hw]
    exact hgives.kind?_eq
  | binary _ _ ihl ihr =>
    obtain ⟨u, w, hu, hw, hgives⟩ := eval_binary_eq_ok hv
    rw [kind?, ihl hu, ihr hw]
    exact hgives.kind?_eq

/-! ## Faults are divisions by zero -/

/-- **What has a kind raises nothing but a division by zero.** -/
theorem Raises.of_kind? (h : Raises s e f) (hk : e.kind?.isSome = true) :
    f = .divisionByZero ∧ ∃ l r, e = .binary .divide l r := by
  obtain ⟨k, hk⟩ := Option.isSome_iff_exists.1 hk
  cases h with
  | @unary op x v hv hmark hkind =>
    obtain ⟨j, hx, hop⟩ := Option.bind_eq_some_iff.1 hk
    rw [op.operandKind_symbol] at hkind
    rw [← kind_of_kind? hx hv, UnaryOp.kind?_eq_none hmark hkind] at hop
    cases hop
  | @binary op l r v w got heq hne hv hw hl hr hgot =>
    obtain ⟨i, hx, hk⟩ := Option.bind_eq_some_iff.1 hk
    obtain ⟨j, hy, hop⟩ := Option.bind_eq_some_iff.1 hk
    -- operands that the operator does not take leave the node without a kind
    have htakes : ¬ op.Takes v.kind w.kind := by
      rintro ((rfl | rfl) | ⟨hv', hw'⟩)
      · exact heq rfl
      · exact hne rfl
      · rw [hv', hw', op.operandKind_symbol] at hgot
        simp at hgot
    rw [← kind_of_kind? hx hv, ← kind_of_kind? hy hw, BinaryOp.kind?_eq_none hl hr htakes] at hop
    cases hop
  | @divide l r => exact ⟨rfl, l, r, rfl⟩
  | call hname =>
    obtain ⟨b, hb, -⟩ := Option.bind_eq_some_iff.1 hk
    rw [hname] at hb
    cases hb

/-- And so its fault is that of a division within it. -/
theorem fault_of_kind? (hk : e.kind?.isSome = true) (h : eval s e = .error f) :
    f = .divisionByZero ∧ ∃ l r, .binary .divide l r ∈ e.subtrees := by
  obtain ⟨t, ht, -, hraises⟩ := exists_raises h
  obtain ⟨rfl, l, r, rfl⟩ := hraises.of_kind? (isSome_kind?_subtree hk ht)
  exact ⟨rfl, l, r, ht⟩

/-- **The kind of an expression decides what comes of it.** With a kind, it has on
every document a value of that kind or ends in a division by zero, and the
latter only if there is a division in it. Without a kind it ends in a fault on
every document, if no logical operator and no call stands in it. -/
theorem kind?_decides (s : Snapshot) (e : Expr) :
    (∀ k, e.kind? = some k →
        ((∃ v, eval s e = .ok v ∧ v.kind = k) ∨ eval s e = .error .divisionByZero) ∧
          ((∀ l r, .binary .divide l r ∉ e.subtrees) → ∃ v, eval s e = .ok v ∧ v.kind = k)) ∧
      (e.IsStrict → e.kind? = none → ∃ f, eval s e = .error f) := by
  refine ⟨fun k hk => ?_, fun hstrict hnone => ?_⟩
  · have hsome : e.kind?.isSome = true := by rw [hk, Option.isSome_some]
    cases he : eval s e with
    | ok v =>
      have hv : ∃ w, Except.ok v = (.ok w : Except Fault Value) ∧ w.kind = k :=
        ⟨v, rfl, kind_of_kind? hk he⟩
      exact ⟨.inl hv, fun _ => hv⟩
    | error f =>
      obtain ⟨rfl, l, r, hdivide⟩ := fault_of_kind? hsome he
      exact ⟨.inr rfl, fun hno => absurd hdivide (hno l r)⟩
  · cases he : eval s e with
    | error f => exact ⟨f, rfl⟩
    | ok v =>
      rw [hstrict.kind?_eq he] at hnone
      cases hnone

/-- A comparison of the width with a number has a truth value, and `!1` ends in a
fault. -/
theorem kind?_decides_comparison :
    (∃ v, eval ⟨640, 480, .rgb, false, 3, 3, false, true⟩
        (.binary .gt (.param "PSHOP_ImageWidth") (.const (.integer 600))) = .ok v ∧
          v.kind = .boolean) ∧
      ∃ f, eval ⟨640, 480, .rgb, false, 3, 3, false, true⟩ (.unary .not (.const (.integer 1))) =
        .error f := by
  have hcompare := kind?_decides ⟨640, 480, .rgb, false, 3, 3, false, true⟩
    (.binary .gt (.param "PSHOP_ImageWidth") (.const (.integer 600)))
  have hnot := kind?_decides ⟨640, 480, .rgb, false, 3, 3, false, true⟩
    (.unary .not (.const (.integer 1)))
  exact ⟨(hcompare.1 .boolean rfl).2 (by simp [subtrees]), hnot.2 (.unary .const) rfl⟩

end Expr
end Enablement
