import Enablement.Proofs.Eval.Steps
import Enablement.Proofs.Expr.Subtrees

/-!
# Evaluation — where a mark comes from

The mark of an unbound variable is handed on by operators on values and by
nothing else. So a value is a mark exactly if one of the strict leaves of the
expression is, those that are reached through such operators alone, and it
carries the name of the leftmost of them (`Expr.mark?_eq_findSome?`). What is
below a logical operator or in a call leaves no mark.
-/

namespace Enablement

/-- The name that a value marks as unbound. -/
def Value.mark? : Value → Option String
  | .undefined name => some name
  | .boolean _ | .integer _ | .string _ => none

/-- A mark is what a value of the unbound kind has. -/
@[simp] theorem Value.isSome_mark? (v : Value) : v.mark?.isSome = v.isUndefined := by
  cases v <;> rfl

/-- A value of another kind has none. -/
theorem Value.mark?_eq_none_iff {v : Value} : v.mark? = none ↔ v.kind ≠ .undefined := by
  cases v <;> simp [mark?, kind]

/-- An operator before an operand hands on its mark, and makes none. -/
theorem UnaryOp.Gives.mark?_eq {op : UnaryOp} {v w : Value} (h : op.Gives v (.ok w)) :
    w.mark? = v.mark? := by
  cases h with
  | mark _ => rfl
  | value hv hw =>
    have htakes := op.operandKind_ne_undefined
    rw [Value.mark?_eq_none_iff.2 (hw ▸ htakes), Value.mark?_eq_none_iff.2 (hv ▸ htakes)]

/-- An operator on two values hands on the mark of the left one, or else that of
the right one, and makes none. -/
theorem BinaryOp.Gives.mark?_eq {op : BinaryOp} {l r v : Value} (h : op.Gives l r (.ok v)) :
    v.mark? = l.mark?.or r.mark? := by
  cases h with
  | left hl =>
    obtain ⟨name, rfl⟩ := Value.kind_eq_undefined_iff.1 hl
    rfl
  | right hl _ => rw [Value.mark?_eq_none_iff.2 hl, Option.none_or]
  | value hl hr _ hv =>
    have hresult := op.resultKind_ne_undefined
    rw [Value.mark?_eq_none_iff.2 hl, Value.mark?_eq_none_iff.2 hr, Option.none_or,
      Value.mark?_eq_none_iff.2 (hv ▸ hresult)]

namespace Expr

/-- The name that a leaf marks as unbound: that of a mark, or of a variable that
no document has. -/
def mark? : Expr → Option String
  | .const v => v.mark?
  | .param name => if Variable.ofName? name = none then some name else none
  | .unary .. | .binary .. | .logical .. | .call .. => none

/-- The nodes that are reached through operators on values alone, from left to
right: leaves, logical operators and calls. -/
def strictLeaves : Expr → List Expr
  | .unary _ x => strictLeaves x
  | .binary _ l r => strictLeaves l ++ strictLeaves r
  | .const v => [.const v]
  | .param name => [.param name]
  | .logical op l r => [.logical op l r]
  | .call name args => [.call name args]

variable {s : Snapshot} {e t : Expr} {v : Value}

/-- A name has a mark in a document just if it is unbound, and then it is its own. -/
theorem mark?_lookup (s : Snapshot) (name : String) :
    (s.lookup name).mark? = (param name).mark? := by
  unfold Snapshot.lookup
  rw [mark?]
  split
  next x hx =>
    rw [if_neg (by simp [hx]), Value.mark?_eq_none_iff, Snapshot.kind_get]
    cases x <;> simp [Variable.kind]
  next hx => rw [if_pos hx, Value.mark?]

/-- **A value marks what the leftmost marking leaf does**, and nothing if there is
no such leaf. -/
theorem mark?_eq_findSome? (h : eval s e = .ok v) : v.mark? = e.strictLeaves.findSome? mark? := by
  induction e using induct generalizing v with
  | const w =>
    obtain rfl := Except.ok.inj h
    simp [strictLeaves, mark?]
  | param name =>
    rw [eval_param] at h
    obtain rfl := Except.ok.inj h
    simp [strictLeaves, mark?_lookup]
  | unary op x ih =>
    obtain ⟨w, hx, hgives⟩ := eval_unary_eq_ok h
    rw [hgives.mark?_eq, ih hx, strictLeaves]
  | binary op l r ihl ihr =>
    obtain ⟨u, w, hl, hr, hgives⟩ := eval_binary_eq_ok h
    rw [hgives.mark?_eq, ihl hl, ihr hr, strictLeaves, List.findSome?_append]
  | logical op l r _ _ =>
    -- a connective gives a truth value whatever its operands are, and so has no strict leaf
    have hnone : v.mark? = none := by
      rw [Value.mark?_eq_none_iff, kind_of_eval_logical h]
      simp
    simp [hnone, strictLeaves, mark?]
  | call name args _ =>
    obtain ⟨b, -, hkind⟩ := kind_of_eval_call h
    have hnone : v.mark? = none := by
      rw [Value.mark?_eq_none_iff, hkind]
      exact b.resultKind_ne_undefined
    simp [hnone, strictLeaves, mark?]

/-- In a strict expression every marking leaf is a strict leaf. -/
theorem IsStrict.mem_strictLeaves (he : e.IsStrict) (ht : t ∈ e.subtrees)
    (hmark : t.mark?.isSome = true) : t ∈ e.strictLeaves := by
  induction he with
  | const => exact ht
  | param => exact ht
  | unary _ ih =>
    rcases List.mem_cons.1 ht with rfl | ht
    · cases hmark
    · exact ih ht
  | binary _ _ ihl ihr =>
    rcases List.mem_cons.1 ht with rfl | ht
    · cases hmark
    · rw [strictLeaves, List.mem_append]
      exact (List.mem_append.1 ht).imp ihl ihr

/-- **Where a mark comes from.** A value of an expression is a mark if and only if
some strict leaf marks a name, and then it carries the name of the leftmost such
leaf. And so a strict expression that mentions an unbound variable never has
the verdict true. -/
theorem mark_of_leftmost_strict_leaf (s : Snapshot) (e : Expr) :
    (∀ v, eval s e = .ok v →
        (v.isUndefined = true ↔ ∃ t ∈ e.strictLeaves, t.mark?.isSome = true) ∧
          ∀ name, v = .undefined name → e.strictLeaves.findSome? mark? = some name) ∧
      (e.IsStrict → (∃ t ∈ e.subtrees, t.mark?.isSome = true) →
        (e.evaluate s).result ≠ .ok true) := by
  refine ⟨fun v hv => ?_, fun hstrict hmention htrue => ?_⟩
  · have hmark := mark?_eq_findSome? hv
    refine ⟨?_, fun name hname => by rw [← hmark, hname, Value.mark?]⟩
    rw [← List.findSome?_isSome_iff, ← hmark, Value.isSome_mark?]
  · obtain ⟨t, ht, hmark⟩ := hmention
    have hleaves := mark?_eq_findSome? (evaluate_eq_true_iff.1 htrue)
    -- the value true marks nothing, so no strict leaf does
    have hnone := List.findSome?_eq_none_iff.1 hleaves.symm t (hstrict.mem_strictLeaves ht hmark)
    rw [hnone] at hmark
    cases hmark

/-- A sum with an unbound variable has its mark, and compared with anything it
does not enable a filter. -/
theorem mark_of_unbound_summand :
    (binary .add (.param "PSHOP_ImageWidth") (.param "b")).strictLeaves.findSome? mark? =
        some "b" ∧
      (evaluate ⟨640, 480, .rgb, false, 3, 3, false, true⟩
        (.binary .eq (.binary .add (.param "PSHOP_ImageWidth") (.param "b"))
          (.param "a"))).result ≠ .ok true := by
  have hsum := mark_of_leftmost_strict_leaf ⟨640, 480, .rgb, false, 3, 3, false, true⟩
    (.binary .add (.param "PSHOP_ImageWidth") (.param "b"))
  have hcompare := mark_of_leftmost_strict_leaf ⟨640, 480, .rgb, false, 3, 3, false, true⟩
    (.binary .eq (.binary .add (.param "PSHOP_ImageWidth") (.param "b")) (.param "a"))
  refine ⟨(hsum.1 (.undefined "b") rfl).2 "b" rfl, ?_⟩
  exact hcompare.2 (.binary (.binary .param .param) .param) ⟨.param "b", by simp [subtrees], rfl⟩

end Expr
end Enablement
