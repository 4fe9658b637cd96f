import Enablement.Proofs.Eval.Steps
import Enablement.Proofs.Expr.Relabelling
import Enablement.Proofs.Expr.Written
import Enablement.Proofs.Text.Lowercase

/-!
# Evaluation — alike operands, alike results

What a node gives depends on its operands by their results alone, and on a
text in them only up to the case of ASCII letters. So operands with alike
results may stand for each other in every node (`Expr.alike_unary` to
`Expr.alike_call`), whatever expressions they are. How much of a text counts is
for a `Likeness` to say: all of it, or all but case.
-/

namespace Enablement

/-- Which texts are taken for the same: an equivalence, and none of texts that
differ in more than the case of letters. -/
structure Likeness where
  /-- The two texts are taken for the same. -/
  same : String → String → Prop
  /-- Every text is the same as itself, and as those that the same text is. -/
  equiv : Equivalence same
  /-- Only the case of letters may differ. -/
  foldName_eq : ∀ {t u}, same t u → Text.foldName t = Text.foldName u

namespace Likeness

/-- Texts are the same if nothing differs. -/
def exact : Likeness where
  same := Eq
  equiv := ⟨fun _ => rfl, fun h => h.symm, fun h h' => h.trans h'⟩
  foldName_eq := congrArg Text.foldName

/-- Texts are the same if only the case of letters differs. -/
def uncased : Likeness where
  same t u := Text.foldName t = Text.foldName u
  equiv := ⟨fun _ => rfl, fun h => h.symm, fun h h' => h.trans h'⟩
  foldName_eq := id

end Likeness

variable (E : Likeness) {α β γ δ ι : Type}

/-- The values are the same, but for texts that are taken for the same. -/
inductive Value.Alike : Value → Value → Prop
  /-- A truth value is like itself. -/
  | boolean (b : Bool) : Alike (.boolean b) (.boolean b)
  /-- A number is like itself. -/
  | integer (n : Int32) : Alike (.integer n) (.integer n)
  /-- Texts that are taken for the same are alike. -/
  | string {t u : String} : E.same t u → Alike (.string t) (.string u)
  /-- And so are the marks of such names. -/
  | undefined {m n : String} : E.same m n → Alike (.undefined m) (.undefined n)

/-- The faults are the same, but for the name of an unknown function. -/
inductive Fault.Alike : Fault → Fault → Prop
  /-- A fault is like itself. -/
  | refl (f : Fault) : Alike f f
  /-- Names that are taken for the same may be unknown in its place. -/
  | unknownFunction {m n : String} : E.same m n →
      Alike (.unknownFunction m) (.unknownFunction n)

/-- **The results are alike**: values that are related, or alike faults. -/
inductive Alike (R : α → β → Prop) : Except Fault α → Except Fault β → Prop
  /-- Both are values. -/
  | ok {a : α} {b : β} : R a b → Alike R (.ok a) (.ok b)
  /-- Both are faults. -/
  | error {f g : Fault} : f.Alike E g → Alike R (.error f) (.error g)

/-- Values that are alike, or alike faults. -/
abbrev Likeness.Agree (r r' : Except Fault Value) : Prop := Alike E (Value.Alike E) r r'

variable {E} {R : α → β → Prop} {S : γ → δ → Prop}

/-! ## Values -/

namespace Value.Alike

variable {v w v' w' : Value}

/-- A value is like itself. -/
theorem refl (v : Value) : v.Alike E v := by
  cases v with
  | boolean b => exact .boolean b
  | integer n => exact .integer n
  | string t => exact .string (E.equiv.refl t)
  | undefined name => exact .undefined (E.equiv.refl name)

/-- Values that are alike are of one kind. -/
theorem kind_eq (h : v.Alike E w) : v.kind = w.kind := by cases h <;> rfl

/-- Texts are compared without case. -/
theorem same_eq (h : v.Alike E w) (h' : v'.Alike E w') : v.same v' = w.same w' := by
  cases h with
  | string ht =>
    cases h' with
    | string hu =>
      have htext := Text.upperText_eq_of_foldName (E.foldName_eq ht)
      have htext' := Text.upperText_eq_of_foldName (E.foldName_eq hu)
      rw [same, same, Text.sameText, Text.sameText, htext, htext']
    | _ => rfl
  | _ => cases h' <;> rfl

end Value.Alike

/-- Names that are taken for the same stand for values that are alike. -/
theorem Snapshot.alike_lookup (s : Snapshot) {m n : String} (h : E.same m n) :
    (s.lookup m).Alike E (s.lookup n) := by
  have hvariable : Variable.ofName? m = Variable.ofName? n := by
    simp only [Variable.ofName?, Text.sameName, E.foldName_eq h]
  rw [lookup, lookup, hvariable]
  cases Variable.ofName? n with
  | none => exact .undefined h
  | some x => exact .refl _

/-! ## Results -/

/-- **One computation after another**: if the first are alike, and the second
are for values that are, so is the whole. -/
theorem Alike.bind {x : Logged α} {x' : Logged β} {k : α → Logged γ} {k' : β → Logged δ}
    (hx : Alike E R x.result x'.result)
    (hk : ∀ a b, R a b → Alike E S (k a).result (k' b).result) :
    Alike E S (x >>= k).result (x' >>= k').result := by
  rw [Logged.result_bind, Logged.result_bind]
  generalize x.result = r at hx
  generalize x'.result = r' at hx
  cases hx with
  | ok hab => exact hk _ _ hab
  | error hfg => exact .error hfg

/-- Faults that are like the same one are alike. -/
theorem Fault.Alike.join {f g k : Fault} (h : f.Alike E k) (h' : g.Alike E k) : f.Alike E g := by
  cases h with
  | refl =>
    cases h' with
    | refl => exact .refl _
    | unknownFunction hn => exact .unknownFunction (E.equiv.symm hn)
  | unknownFunction hm =>
    cases h' with
    | refl => exact .unknownFunction hm
    | unknownFunction hn => exact .unknownFunction (E.equiv.trans hm (E.equiv.symm hn))

/-- Results that come to the same as a third one come to the same. -/
theorem Alike.join {r r' m : Except Fault α} (h : Alike E Eq r m) (h' : Alike E Eq r' m) :
    Alike E Eq r r' := by
  cases h with
  | ok hab =>
    cases h' with
    | ok hab' => exact .ok (hab.trans hab'.symm)
  | error hfk =>
    cases h' with
    | error hgk => exact .error (hfk.join hgk)

/-- A result agrees with itself. -/
theorem Likeness.Agree.refl (r : Except Fault Value) : E.Agree r r := by
  cases r with
  | error f => exact .error (.refl f)
  | ok v => exact .ok (.refl v)

/-- Where nothing may differ, results that are alike are equal. -/
theorem Likeness.Agree.eq {r r' : Except Fault Value} (h : Likeness.exact.Agree r r') : r = r' := by
  cases h with
  | ok hvw =>
    cases hvw with
    | boolean | integer => rfl
    | @string t u ht =>
      obtain rfl : t = u := ht
      rfl
    | @undefined m n hname =>
      obtain rfl : m = n := hname
      rfl
  | error hfg =>
    cases hfg with
    | refl => rfl
    | @unknownFunction m n hname =>
      obtain rfl : m = n := hname
      rfl

/-! ## Operators on values -/

/-- A one-place operator agrees on operands that are alike. -/
theorem UnaryOp.alike_apply (op : UnaryOp) {v w : Value} (h : v.Alike E w) :
    E.Agree (op.apply v) (op.apply w) := by
  cases h with
  | undefined hname => cases op <;> exact .ok (.undefined hname)
  | boolean b => exact .refl _
  | integer n => exact .refl _
  | string ht => cases op <;> exact .error (.refl _)

/-- Without marks, alike operands make the very same of an operator. -/
theorem BinaryOp.apply_eq_of_alike (op : BinaryOp) {l r l' r' : Value} (hl : l.Alike E l')
    (hr : r.Alike E r') (hmark : l.kind ≠ .undefined) (hmark' : r.kind ≠ .undefined) :
    op.apply l r = op.apply l' r' := by
  have hsame := hl.same_eq hr
  cases hl with
  | undefined _ => exact absurd rfl hmark
  | boolean b | integer n =>
    cases hr with
    | undefined _ => exact absurd rfl hmark'
    | boolean | integer => rfl
    | string _ => cases op <;> rfl
  | string _ =>
    cases hr with
    | undefined _ => exact absurd rfl hmark'
    | boolean | integer => cases op <;> rfl
    | string _ =>
      -- of two texts only a comparison sees more than their kind
      cases op with
      | eq | ne => simp only [apply, hsame]
      | _ => rfl

/-- A two-place operator agrees on operands that are alike. -/
theorem BinaryOp.alike_apply (op : BinaryOp) {l r l' r' : Value} (hl : l.Alike E l')
    (hr : r.Alike E r') : E.Agree (op.apply l r) (op.apply l' r') := by
  by_cases hmark : l.kind = .undefined
  · cases hl with
    | undefined hname => exact .ok (.undefined hname)
    | _ => cases hmark
  by_cases hmark' : r.kind = .undefined
  · cases hr with
    | undefined hname =>
      rw [apply_undefined_right hmark, apply_undefined_right (hl.kind_eq ▸ hmark)]
      exact .ok (.undefined hname)
    | _ => cases hmark'
  · rw [op.apply_eq_of_alike hl hr hmark hmark']
    exact .refl _

/-! ## Logical operators and functions -/

/-- A logical operator agrees on operands that agree, and looks at the same ones. -/
theorem LogicalOp.alike_apply (op : LogicalOp) {l r l' r' : Logged Value}
    (hl : E.Agree l.result l'.result)
    (hr : E.Agree r.result r'.result) :
    E.Agree (op.apply l r).result (op.apply l' r').result := by
  refine hl.bind fun v w hvw => ?_
  cases hvw with
  | boolean a =>
    by_cases ha : a = op.settledBy
    · simp only [if_pos ha]
      exact .ok (.boolean a)
    · simp only [if_neg ha]
      refine hr.bind fun v w hvw => ?_
      cases hvw with
      | boolean b => exact .ok (.boolean b)
      | _ => exact .ok (.boolean false)
  | _ => exact .ok (.boolean false)

namespace Builtin

/-! The arguments are given as two computations for each member of a list. -/

variable {is : List ι} {f g : ι → Logged Value}

/-- The search for a value agrees on candidates that agree: it ends at the same one. -/
theorem alike_anySame {x y : Value} (hxy : x.Alike E y)
    (h : ∀ i ∈ is, E.Agree (f i).result (g i).result) :
    Alike E Eq (anySame x (is.map f)).result (anySame y (is.map g)).result := by
  induction is with
  | nil => exact .ok rfl
  | cons i is ih =>
    obtain ⟨hi, his⟩ := List.forall_mem_cons.1 h
    refine hi.bind fun v w hvw => ?_
    rw [isHit_eq_same, isHit_eq_same, hxy.same_eq hvw]
    by_cases hfound : y.same w = true
    · simp only [if_pos hfound]
      exact .ok rfl
    · simp only [if_neg hfound]
      exact ih his

/-- So membership agrees. -/
theorem alike_isMember (h : ∀ i ∈ is, E.Agree (f i).result (g i).result) :
    E.Agree (isMember (is.map f)).result (isMember (is.map g)).result := by
  match is with
  | [] | [_] => exact .ok (.boolean false)
  | i :: j :: is =>
    obtain ⟨hi, his⟩ := List.forall_mem_cons.1 h
    refine hi.bind fun v w hvw => ?_
    simp only [Value.isUndefined_iff, hvw.kind_eq]
    by_cases hmark : w.kind = .undefined
    · simp only [if_pos hmark]
      exact .ok (.boolean false)
    · simp only [if_neg hmark]
      refine (alike_anySame hvw his).bind fun a b hab => ?_
      rw [hab]
      exact .ok (.boolean b)

/-- The integers that are picked are the same, since marks and texts are passed over. -/
theorem alike_pickFrom (pick : Int32 → Int32 → Int32) (n : Int32)
    (h : ∀ i ∈ is, E.Agree (f i).result (g i).result) :
    E.Agree (pickFrom pick n (is.map f)).result
      (pickFrom pick n (is.map g)).result := by
  induction is generalizing n with
  | nil => exact .ok (.integer n)
  | cons i is ih =>
    obtain ⟨hi, his⟩ := List.forall_mem_cons.1 h
    refine hi.bind fun v w hvw => ?_
    cases hvw <;> exact ih _ his

/-- So the least and the greatest agree. -/
theorem alike_extremum (pick : Int32 → Int32 → Int32)
    (h : ∀ i ∈ is, E.Agree (f i).result (g i).result) :
    E.Agree (extremum pick (is.map f)).result
      (extremum pick (is.map g)).result := by
  match is with
  | [] | [_] => exact .ok (.integer 0)
  | i :: j :: is =>
    obtain ⟨hi, his⟩ := List.forall_mem_cons.1 h
    obtain ⟨hj, his⟩ := List.forall_mem_cons.1 his
    refine hi.bind fun v w hvw => hj.bind fun v' w' hvw' => ?_
    cases hvw with
    | integer a =>
      cases hvw' with
      | integer b => exact alike_pickFrom pick _ his
      | _ => exact .ok (.integer 0)
    | _ => exact .ok (.integer 0)

/-- And the last of the functions agrees on its two arguments. -/
theorem alike_holdsWithout (h : ∀ i ∈ is, E.Agree (f i).result (g i).result) :
    E.Agree (holdsWithout (is.map f)).result (holdsWithout (is.map g)).result := by
  match is with
  | [] | [_] | _ :: _ :: _ :: _ => exact .ok (.boolean false)
  | [i, j] =>
    obtain ⟨hi, his⟩ := List.forall_mem_cons.1 h
    obtain ⟨hj, -⟩ := List.forall_mem_cons.1 his
    refine hi.bind fun v w hvw => hj.bind fun v' w' hvw' => ?_
    cases hvw with
    | boolean a =>
      cases hvw' with
      | boolean b => exact .ok (.boolean _)
      | _ => exact .ok (.boolean false)
    | _ => exact .ok (.boolean false)

/-- **A function gives alike values for alike arguments.** -/
theorem alike_apply (b : Builtin)
    (h : ∀ i ∈ is, E.Agree (f i).result (g i).result) :
    E.Agree (b.apply (is.map f)).result (b.apply (is.map g)).result := by
  cases b with
  | member => exact alike_isMember h
  | least | greatest => exact alike_extremum _ h
  | without => exact alike_holdsWithout h

end Builtin

/-! ## Expressions -/

namespace Expr

variable {s s' : Snapshot} {x x' l l' r r' : Expr}

/-- A one-place operator agrees over operands that agree. -/
theorem alike_unary (op : UnaryOp) (h : E.Agree (eval s x) (eval s' x')) :
    E.Agree (eval s (.unary op x)) (eval s' (.unary op x')) :=
  h.bind fun _ _ hvw => op.alike_apply hvw

/-- A two-place operator agrees over operands that agree. -/
theorem alike_binary (op : BinaryOp) (hl : E.Agree (eval s l) (eval s' l'))
    (hr : E.Agree (eval s r) (eval s' r')) :
    E.Agree (eval s (.binary op l r)) (eval s' (.binary op l' r')) :=
  hl.bind fun _ _ hvw => hr.bind fun _ _ hvw' => op.alike_apply hvw hvw'

/-- A logical operator agrees over operands that agree. -/
theorem alike_logical (op : LogicalOp) (hl : E.Agree (eval s l) (eval s' l'))
    (hr : E.Agree (eval s r) (eval s' r')) :
    E.Agree (eval s (.logical op l r)) (eval s' (.logical op l' r')) :=
  op.alike_apply hl hr

/-- A call agrees over arguments that agree, if the names are the same function's. -/
theorem alike_call {m n : String} (hname : E.same m n) {is : List ι} {f g : ι → Expr}
    (h : ∀ i ∈ is, E.Agree (eval s (f i)) (eval s' (g i))) :
    E.Agree (eval s (.call m (is.map f))) (eval s' (.call n (is.map g))) := by
  have hbuiltin : Builtin.ofName? m = Builtin.ofName? n := by
    simp only [Builtin.ofName?, Text.sameName, E.foldName_eq hname]
  cases hn : Builtin.ofName? n with
  | none =>
    rw [eval_call_unknown s (hbuiltin.trans hn), eval_call_unknown s' hn]
    exact .error (.unknownFunction hname)
  | some b =>
    rw [eval_call s (hbuiltin.trans hn), eval_call s' hn, List.map_map, List.map_map]
    exact b.alike_apply h

/-- **Leaves may stand for each other** where the constants and variables of a tree
are alike what stands for them: so are then the results of the two trees. -/
theorem alike_rebuild {P : Value → Prop} {Q : String → Prop} {c : Value → Expr}
    {p : String → Expr} {f : String → String}
    (hc : ∀ v, P v → E.Agree (.ok v) (eval s' (c v)))
    (hp : ∀ name, Q name → E.Agree (.ok (s.lookup name)) (eval s' (p name)))
    (hf : ∀ name, Q name → E.same name (f name)) {e : Expr} (he : e.BuiltFrom P Q) :
    E.Agree (eval s e) (eval s' (e.rebuild c p f)) := by
  induction he with
  | const hv => exact hc _ hv
  | @param name hname =>
    rw [eval_param]
    exact hp name hname
  | unary _ ih => exact alike_unary _ ih
  | binary _ _ ihl ihr => exact alike_binary _ ihl ihr
  | logical _ _ ihl ihr => exact alike_logical _ ihl ihr
  | call hname _ ih =>
    have hcall := alike_call (f := id) (hf _ hname) ih
    rwa [List.map_id, ← rebuild_call] at hcall

/-- **Alike texts in an expression make alike results.** -/
theorem alike_mapText {f : String → String} (hf : ∀ t, E.same t (f t)) (s : Snapshot) (e : Expr) :
    E.Agree (eval s e) (eval s (e.mapText f)) := by
  refine alike_rebuild (fun v _ => ?_) (fun name _ => ?_) (fun name _ => hf name) e.builtFrom_any
  · cases v with
    | boolean | integer => exact .refl _
    | string t => exact .ok (.string (hf t))
    | undefined name => exact .ok (.undefined (hf name))
  · rw [eval_param]
    exact .ok (s.alike_lookup (hf name))

/-- **Alike results make alike verdicts**: the same one, or alike faults. -/
theorem alike_evaluate {e e' : Expr} (h : E.Agree (eval s e) (eval s' e')) :
    Alike E Eq (e.evaluate s).result (e'.evaluate s').result := by
  rw [result_evaluate, result_evaluate]
  generalize eval s e = r at h
  generalize eval s' e' = r' at h
  cases h with
  | error hfg => exact .error hfg
  | ok hvw => cases hvw <;> exact .ok (by simp)

end Expr
end Enablement
