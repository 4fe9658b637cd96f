import Enablement.Eval

/-!
# Evaluation — what one node does

What a node gives depends on its operands in one of two ways. An operator on
values takes all of them and hands on the leftmost mark of an unbound
variable; without a mark the kinds of the operands decide what comes of them,
up to a division by zero (`UnaryOp.Gives`, `BinaryOp.Gives`). A logical
operator and a function give a value of one kind whatever their operands are,
and only a fault of an operand gets through them (`Soft`). Whatever is proved
of all evaluations is derived from these.
-/

namespace Enablement

/-! ## Values by kind -/

namespace Value

variable {v : Value}

/-- The values of the unbound kind are the marks. -/
theorem kind_eq_undefined_iff : v.kind = .undefined ↔ ∃ name, v = .undefined name := by
  cases v <;> simp [kind]

/-- Those of the integer kind are the integers. -/
theorem kind_eq_integer_iff : v.kind = .integer ↔ ∃ n, v = .integer n := by
  cases v <;> simp [kind]

/-- Those of the boolean kind are the truth values. -/
theorem kind_eq_boolean_iff : v.kind = .boolean ↔ ∃ b, v = .boolean b := by
  cases v <;> simp [kind]

/-- The value is of a kind. -/
def IsOf (k : ValueKind) (v : Value) : Prop := v.kind = k

/-- Every value but a mark is the same as itself. -/
theorem same_self (h : v.kind ≠ .undefined) : v.same v = true := by
  cases v with
  | undefined name => exact absurd rfl h
  | _ => simp [same]

end Value

/-! ## Operators before an operand -/

namespace UnaryOp

/-- No operator takes marks alone. -/
theorem operandKind_ne_undefined (op : UnaryOp) : op.operandKind ≠ .undefined := by
  cases op <;> simp [operandKind]

/-- **What an operator before its operand gives.** -/
inductive Gives (op : UnaryOp) (v : Value) : Except Fault Value → Prop
  /-- A mark is handed on. -/
  | mark : v.kind = .undefined → Gives op v (.ok v)
  /-- An operand of the kind that the operator takes makes a value of that kind. -/
  | value {w : Value} : v.kind = op.operandKind → w.kind = op.operandKind → Gives op v (.ok w)
  /-- An operand of another kind is at fault. -/
  | mismatch : v.kind ≠ .undefined → v.kind ≠ op.operandKind →
      Gives op v (.error (.typeMismatch op.symbol op.operandKind v.kind))

/-- **What a one-place operator gives** is one of its cases. -/
theorem gives_apply (op : UnaryOp) (v : Value) : op.Gives v (op.apply v) := by
  by_cases hmark : v.kind = .undefined
  · obtain ⟨name, rfl⟩ := Value.kind_eq_undefined_iff.1 hmark
    have happly : op.apply (.undefined name) = .ok (.undefined name) := by cases op <;> rfl
    rw [happly]
    exact .mark rfl
  by_cases hkind : v.kind = op.operandKind
  · cases op with
    | not =>
      obtain ⟨b, rfl⟩ := Value.kind_eq_boolean_iff.1 hkind
      exact .value rfl rfl
    | negate | plus =>
      obtain ⟨n, rfl⟩ := Value.kind_eq_integer_iff.1 hkind
      exact .value rfl rfl
  -- each operator refuses the kinds that are left
  · have happly : op.apply v = .error (.typeMismatch op.symbol op.operandKind v.kind) := by
      cases v with
      | undefined name => exact absurd rfl hmark
      | boolean b =>
        cases op with
        | not => exact absurd rfl hkind
        | negate | plus => rfl
      | integer n =>
        cases op with
        | not => rfl
        | negate | plus => exact absurd rfl hkind
      | string t => cases op <;> rfl
    rw [happly]
    exact .mismatch hmark hkind

end UnaryOp

/-! ## Operators on two values -/

namespace BinaryOp

/-- The kind of what an operator makes of operands that it takes. -/
def resultKind : BinaryOp → ValueKind
  | .add | .subtract | .multiply | .divide => .integer
  | .eq | .ne | .gt | .ge | .lt | .le => .boolean

/-- No operator makes a mark of its own. -/
theorem resultKind_ne_undefined (op : BinaryOp) : op.resultKind ≠ .undefined := by
  cases op <;> simp [resultKind]

/-- Whether an operator takes operands of two kinds, none of them a mark. Those
for equality take all, and the others integers. -/
def Takes (op : BinaryOp) (k j : ValueKind) : Prop :=
  (op = .eq ∨ op = .ne) ∨ (k = .integer ∧ j = .integer)

/-- **What an operator on two values gives.** -/
inductive Gives (op : BinaryOp) (l r : Value) : Except Fault Value → Prop
  /-- A mark on the left is handed on. -/
  | left : l.kind = .undefined → Gives op l r (.ok l)
  /-- And one on the right, where there is none on the left. -/
  | right : l.kind ≠ .undefined → r.kind = .undefined → Gives op l r (.ok r)
  /-- Operands that the operator takes make a value. -/
  | value {v : Value} : l.kind ≠ .undefined → r.kind ≠ .undefined → op.Takes l.kind r.kind →
      v.kind = op.resultKind → Gives op l r (.ok v)
  /-- Unless it divides by zero. -/
  | zero {a : Int32} : op = .divide → l = .integer a → r = .integer 0 →
      Gives op l r (.error .divisionByZero)
  /-- Of other operands the leftmost that is no integer is at fault. -/
  | mismatch {got : ValueKind} : l.kind ≠ .undefined → r.kind ≠ .undefined →
      ¬ op.Takes l.kind r.kind → [l.kind, r.kind].find? (· != .integer) = some got →
      Gives op l r (.error (.typeMismatch op.symbol .integer got))

variable {op : BinaryOp} {l r : Value}

/-- A mark on the right is handed on behind an operand that is no mark. -/
theorem apply_undefined_right {name : String} (hl : l.kind ≠ .undefined) :
    op.apply l (.undefined name) = .ok (.undefined name) := by
  cases l with
  | undefined => exact absurd rfl hl
  | _ => rfl

/-- Equality of operands that are no marks is that of values. -/
theorem apply_eq (hl : l.kind ≠ .undefined) (hr : r.kind ≠ .undefined) :
    BinaryOp.eq.apply l r = .ok (.boolean (l.same r)) := by
  cases l with
  | undefined => exact absurd rfl hl
  | _ =>
    cases r with
    | undefined => exact absurd rfl hr
    | _ => rfl

/-- Equality is asked of any two values that are no marks. -/
theorem apply_equality (hop : op = .eq ∨ op = .ne) (hl : l.kind ≠ .undefined)
    (hr : r.kind ≠ .undefined) : ∃ b, op.apply l r = .ok (.boolean b) := by
  cases l with
  | undefined => exact absurd rfl hl
  | _ =>
    cases r with
    | undefined => exact absurd rfl hr
    | _ => rcases hop with rfl | rfl <;> exact ⟨_, rfl⟩

/-- All other operators find fault with the leftmost operand that is no integer. -/
theorem apply_mismatch {got : ValueKind} (hop : ¬ (op = .eq ∨ op = .ne))
    (hl : l.kind ≠ .undefined) (hr : r.kind ≠ .undefined)
    (hgot : [l.kind, r.kind].find? (· != .integer) = some got) :
    op.apply l r = .error (.typeMismatch op.symbol .integer got) := by
  by_cases hint : l.kind = .integer
  · obtain ⟨a, rfl⟩ := Value.kind_eq_integer_iff.1 hint
    have hright : r.kind ≠ .integer ∧ r.kind = got := by simpa [Value.kind] using hgot
    obtain ⟨hr', rfl⟩ := hright
    cases op with
    | eq | ne => simp at hop
    | _ =>
      cases r with
      | integer | undefined => contradiction
      | _ => rfl
  · obtain rfl : l.kind = got := by simpa [hint] using hgot
    cases op with
    | eq | ne => simp at hop
    | _ =>
      cases l with
      | integer | undefined => contradiction
      | _ =>
        cases r with
        | undefined => contradiction
        | _ => rfl

/-- On integers each operator gives what it is made for. -/
theorem gives_integers (op : BinaryOp) (a b : Int32) :
    op.Gives (.integer a) (.integer b) (op.apply (.integer a) (.integer b)) := by
  have hvalue : ∀ v : Value, v.kind = op.resultKind → op.Gives (.integer a) (.integer b) (.ok v) :=
    fun v hv => .value (by simp [Value.kind]) (by simp [Value.kind]) (.inr ⟨rfl, rfl⟩) hv
  cases op with
  | divide =>
    by_cases hb : b = 0
    · have happly : apply .divide (.integer a) (.integer b) = .error .divisionByZero := if_pos hb
      rw [happly]
      exact .zero rfl rfl (by rw [hb])
    · have happly : apply .divide (.integer a) (.integer b) = .ok (.integer (a / b)) := if_neg hb
      rw [happly]
      exact hvalue _ rfl
  | _ => exact hvalue _ rfl

/-- **What a two-place operator gives** is one of its cases. -/
theorem gives_apply (op : BinaryOp) (l r : Value) : op.Gives l r (op.apply l r) := by
  by_cases hl : l.kind = .undefined
  · obtain ⟨name, rfl⟩ := Value.kind_eq_undefined_iff.1 hl
    exact .left rfl
  by_cases hr : r.kind = .undefined
  · obtain ⟨name, rfl⟩ := Value.kind_eq_undefined_iff.1 hr
    rw [apply_undefined_right hl]
    exact .right hl rfl
  by_cases hop : op = .eq ∨ op = .ne
  · obtain ⟨b, hb⟩ := apply_equality hop hl hr
    rw [hb]
    exact .value hl hr (.inl hop) (by rcases hop with rfl | rfl <;> rfl)
  by_cases hint : l.kind = .integer ∧ r.kind = .integer
  · obtain ⟨a, rfl⟩ := Value.kind_eq_integer_iff.1 hint.1
    obtain ⟨b, rfl⟩ := Value.kind_eq_integer_iff.1 hint.2
    exact op.gives_integers a b
  · have htakes : ¬ op.Takes l.kind r.kind := not_or.2 ⟨hop, hint⟩
    obtain ⟨got, hgot⟩ : ∃ got, [l.kind, r.kind].find? (· != .integer) = some got := by
      by_cases hl' : l.kind = .integer
      · have hr' : r.kind ≠ .integer := fun h => hint ⟨hl', h⟩
        exact ⟨r.kind, by simp [hl', hr']⟩
      · exact ⟨l.kind, by simp [hl']⟩
    rw [apply_mismatch hop hl hr hgot]
    exact .mismatch hl hr htakes hgot

end BinaryOp

/-! ## Logical operators and functions -/

/-- **A soft result**: a value that is `P`, whatever the results in `rs` are, or
a fault that is one of them. -/
inductive Soft {α : Type} (P : α → Prop) (rs : List (Except Fault Value)) : Except Fault α → Prop
  /-- There is a value. -/
  | value {a : α} : P a → Soft P rs (.ok a)
  /-- A fault gets through. -/
  | fault {f : Fault} : .error f ∈ rs → Soft P rs (.error f)

namespace Soft

variable {α β : Type} {P : α → Prop} {Q : β → Prop} {rs rs' : List (Except Fault Value)}

/-- Each of the results is one that a computation of them may hand on. -/
theorem of_mem {r : Except Fault Value} (h : r ∈ rs) : Soft (fun _ => True) rs r := by
  cases r with
  | error f => exact .fault h
  | ok v => exact .value trivial

/-- What may come of some results may come of more. -/
theorem mono {r : Except Fault α} (h : Soft P rs r) (hrs : rs ⊆ rs') : Soft P rs' r := by
  cases h with
  | value ha => exact .value ha
  | fault hf => exact .fault (hrs hf)

/-- **One soft computation after another is soft.** -/
theorem bind {x : Logged β} {g : β → Logged α} (hx : Soft Q rs x.result)
    (hg : ∀ b, Q b → Soft P rs (g b).result) : Soft P rs (x >>= g).result := by
  rw [Logged.result_bind]
  generalize x.result = r at hx
  cases hx with
  | value hb => exact hg _ hb
  | fault hf => exact .fault hf

end Soft

/-- The value of a logical operator is a truth value. -/
theorem LogicalOp.soft_apply (op : LogicalOp) (l r : Logged Value) :
    Soft (Value.IsOf .boolean) [l.result, r.result] (op.apply l r).result := by
  refine Soft.bind (Soft.of_mem (by simp)) fun v _ => ?_
  split
  · split
    · exact .value rfl
    · refine Soft.bind (Soft.of_mem (by simp)) fun w _ => ?_
      split <;> exact .value rfl
  · exact .value rfl

namespace Builtin

/-- The kind of what a function gives. -/
def resultKind : Builtin → ValueKind
  | .member | .without => .boolean
  | .least | .greatest => .integer

/-- No function makes a mark. -/
theorem resultKind_ne_undefined (f : Builtin) : f.resultKind ≠ .undefined := by
  cases f <;> simp [resultKind]

/-- The search for a value ends in a truth value or in the fault of a candidate. -/
theorem soft_anySame (x : Value) (cs : List (Logged Value)) :
    Soft (fun _ => True) (cs.map (·.result)) (anySame x cs).result := by
  induction cs with
  | nil => exact .value trivial
  | cons c cs ih =>
    refine Soft.bind (Soft.of_mem (by simp)) fun v _ => ?_
    split
    · exact .value trivial
    · exact ih.mono (by simp)

/-- Membership comes to a truth value or to the fault of an argument. -/
theorem soft_isMember (cs : List (Logged Value)) :
    Soft (Value.IsOf .boolean) (cs.map (·.result)) (isMember cs).result := by
  unfold isMember
  split
  next x c cs =>
    refine Soft.bind (Soft.of_mem (by simp)) fun v _ => ?_
    split
    · exact .value rfl
    · exact Soft.bind ((soft_anySame v (c :: cs)).mono (by simp)) fun b _ => .value rfl
  next => exact .value rfl

/-- Picking among integers comes to an integer or to the fault of an argument. -/
theorem soft_pickFrom (pick : Int32 → Int32 → Int32) (n : Int32) (cs : List (Logged Value)) :
    Soft (Value.IsOf .integer) (cs.map (·.result)) (pickFrom pick n cs).result := by
  induction cs generalizing n with
  | nil => exact .value rfl
  | cons c cs ih =>
    refine Soft.bind (Soft.of_mem (by simp)) fun v _ => ?_
    split <;> exact (ih _).mono (by simp)

/-- So do the least and the greatest. -/
theorem soft_extremum (pick : Int32 → Int32 → Int32) (cs : List (Logged Value)) :
    Soft (Value.IsOf .integer) (cs.map (·.result)) (extremum pick cs).result := by
  unfold extremum
  split
  next a b cs =>
    refine Soft.bind (Soft.of_mem (by simp)) fun v _ => ?_
    refine Soft.bind (Soft.of_mem (by simp)) fun w _ => ?_
    split
    · exact (soft_pickFrom pick _ cs).mono (by simp)
    · exact .value rfl
  next => exact .value rfl

/-- And the last of the functions comes to a truth value or to the fault of an
argument. -/
theorem soft_holdsWithout (cs : List (Logged Value)) :
    Soft (Value.IsOf .boolean) (cs.map (·.result)) (holdsWithout cs).result := by
  unfold holdsWithout
  split
  next a b =>
    refine Soft.bind (Soft.of_mem (by simp)) fun v _ => ?_
    refine Soft.bind (Soft.of_mem (by simp)) fun w _ => ?_
    split <;> exact .value rfl
  next => exact .value rfl

/-- The value of a function is of the kind that it gives. -/
theorem soft_apply (f : Builtin) (cs : List (Logged Value)) :
    Soft (Value.IsOf f.resultKind) (cs.map (·.result)) (f.apply cs).result := by
  cases f with
  | member => exact soft_isMember cs
  | least | greatest => exact soft_extremum _ cs
  | without => exact soft_holdsWithout cs

end Builtin

/-! ## Expressions -/

namespace Expr

variable (s : Snapshot) {e l r x : Expr} {args : List Expr} {name : String} {v : Value}

/-- An operator before an operand has the fault of its operand, or gives what
it makes of its value. -/
theorem eval_unary_cases (op : UnaryOp) (x : Expr) :
    (∃ f, eval s x = .error f ∧ eval s (.unary op x) = .error f) ∨
      ∃ v, eval s x = .ok v ∧ op.Gives v (eval s (.unary op x)) := by
  rw [eval_unary]
  cases eval s x with
  | error f => exact .inl ⟨f, rfl, rfl⟩
  | ok v => exact .inr ⟨v, rfl, op.gives_apply v⟩

/-- An operator on two values has the fault of its left operand, or that of its
right one, or gives what it makes of both values. -/
theorem eval_binary_cases (op : BinaryOp) (l r : Expr) :
    (∃ f, eval s l = .error f ∧ eval s (.binary op l r) = .error f) ∨
      (∃ f, eval s r = .error f ∧ eval s (.binary op l r) = .error f) ∨
      ∃ v w, eval s l = .ok v ∧ eval s r = .ok w ∧ op.Gives v w (eval s (.binary op l r)) := by
  rw [eval_binary]
  cases eval s l with
  | error f => exact .inl ⟨f, rfl, rfl⟩
  | ok v =>
    cases eval s r with
    | error f => exact .inr (.inl ⟨f, rfl, rfl⟩)
    | ok w => exact .inr (.inr ⟨v, w, rfl, rfl, op.gives_apply v w⟩)

/-- A logical operator comes to a truth value or to the fault of an operand. -/
theorem soft_eval_logical (op : LogicalOp) (l r : Expr) :
    Soft (Value.IsOf .boolean) [eval s l, eval s r] (eval s (.logical op l r)) :=
  op.soft_apply (run s l) (run s r)

/-- A call by the name of a function gives what the function makes of the
evaluations of its arguments. -/
theorem eval_call {f : Builtin} (h : Builtin.ofName? name = some f) (args : List Expr) :
    eval s (.call name args) = (f.apply (args.map (run s))).result := by
  rw [eval, run, callByName, h, runAll_eq_map]

/-- A call of a function comes to a value of its kind or to the fault of an argument. -/
theorem soft_eval_call {f : Builtin} (h : Builtin.ofName? name = some f) (args : List Expr) :
    Soft (Value.IsOf f.resultKind) (args.map (eval s)) (eval s (.call name args)) := by
  have hsoft := f.soft_apply (args.map (run s))
  rw [List.map_map] at hsoft
  rw [eval_call s h]
  exact hsoft

/-- A call of no function is a fault, whatever the arguments. -/
theorem eval_call_unknown (h : Builtin.ofName? name = none) (args : List Expr) :
    eval s (.call name args) = .error (.unknownFunction name) := by
  rw [eval, run, callByName, h]
  rfl

/-! ### Nodes with a value -/

section

variable {s}

/-- A one-place operator that has a value had one for its operand. -/
theorem eval_unary_eq_ok {op : UnaryOp} (h : eval s (.unary op x) = .ok v) :
    ∃ w, eval s x = .ok w ∧ op.Gives w (.ok v) := by
  obtain ⟨f, -, he⟩ | hgives := eval_unary_cases s op x
  · rw [h] at he
    cases he
  · rwa [h] at hgives

/-- And a two-place operator had one for each of its operands. -/
theorem eval_binary_eq_ok {op : BinaryOp} (h : eval s (.binary op l r) = .ok v) :
    ∃ u w, eval s l = .ok u ∧ eval s r = .ok w ∧ op.Gives u w (.ok v) := by
  obtain ⟨f, -, he⟩ | ⟨f, -, he⟩ | hgives := eval_binary_cases s op l r
  · rw [h] at he
    cases he
  · rw [h] at he
    cases he
  · rwa [h] at hgives

/-- A logical operator has no value but a truth value. -/
theorem kind_of_eval_logical {op : LogicalOp} (h : eval s (.logical op l r) = .ok v) :
    v.kind = .boolean := by
  have hsoft := soft_eval_logical s op l r
  rw [h] at hsoft
  cases hsoft with
  | value hkind => exact hkind

/-- A call has no value but of the kind that its function gives. -/
theorem kind_of_eval_call (h : eval s (.call name args) = .ok v) :
    ∃ f, Builtin.ofName? name = some f ∧ v.kind = f.resultKind := by
  cases hname : Builtin.ofName? name with
  | none =>
    rw [eval_call_unknown s hname args] at h
    cases h
  | some f =>
    have hsoft := soft_eval_call s hname args
    rw [h] at hsoft
    cases hsoft with
    | value hkind => exact ⟨f, rfl, hkind⟩

end

/-! ### The verdict -/

/-- **The verdict is whether the value is the truth value true.** -/
theorem result_evaluate (e : Expr) :
    (e.evaluate s).result = (eval s e).map fun v => decide (v = .boolean true) := by
  have hresult : (e.evaluate s).result = (verdict s e).result := rfl
  rw [hresult, verdict, Logged.result_bind, ← eval]
  cases eval s e with
  | error f => rfl
  | ok v =>
    cases v with
    | boolean b => cases b <;> rfl
    | _ => rfl

variable {s} in
/-- The verdict is true just if the expression comes to the true value. -/
theorem evaluate_eq_true_iff :
    (e.evaluate s).result = .ok true ↔ eval s e = .ok (.boolean true) := by
  rw [result_evaluate]
  cases eval s e <;> simp [Except.map]

end Expr
end Enablement
