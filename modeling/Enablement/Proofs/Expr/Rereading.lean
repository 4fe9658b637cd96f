import Enablement.Proofs.Eval.Likeness
import Enablement.Proofs.Expr.Reparse

/-!
# Expressions — reading back what was never read

A tree that no source spells may be written all the same. A negative number
in it is read back as an operator and a number, the least of all numbers as a
difference, and the mark of an unbound variable as that variable
(`Expr.reread`). That is another tree, but it has the same value on every
document, as long as the marks in the tree are of names that no variable has
(`Expr.eval_reread`). And since leaves take two levels at most, how deep the
tree is says under which limits it is read back
(`Expr.BuiltFrom.ofSource_render`).
-/

namespace Enablement

/-! ## What is read back -/

/-- What is read where a value was written. -/
def Value.reread : Value → Expr
  | .integer n =>
    if n.toInt = -2147483648 then
      .binary .subtract (.unary .negate (.const (.integer 2147483647))) (.const (.integer 1))
    else if n.toInt < 0 then .unary .negate (.const (.integer (-n)))
    else .const (.integer n)
  | .undefined name => .param name
  | v => .const v

/-- What is read where an expression was written. -/
def Expr.reread (e : Expr) : Expr := e.rebuild Value.reread .param id

/-- A value that is written without loss. -/
structure Value.IsFaithful (v : Value) : Prop where
  /-- Its written form can be read. -/
  legible : v.IsLegible
  /-- What it marks as unbound is no variable of a document. -/
  unbound : ∀ name, v = .undefined name → Variable.ofName? name = none

/-! ## Values -/

/-- Only the least of all numbers has no opposite. -/
theorem toInt_neg_of_ne {n : Int32} (h : n.toInt ≠ -2147483648) : (-n).toInt = -n.toInt := by
  have hlow := n.le_toInt
  have hhigh := n.toInt_lt
  rw [Int32.toInt_neg, Int.bmod_eq_of_le] <;> omega

namespace Value

variable {v : Value}

/-- The deepest is what is read for the least of all numbers. -/
theorem depth_reread_le (v : Value) : v.reread.depth ≤ 1 + 2 := by
  cases v with
  | integer n =>
    rw [reread]
    split
    · simp [Expr.depth]
    split <;> simp [Expr.depth]
  | _ => simp [reread, Expr.depth]

/-- A written value takes two levels at most. -/
theorem IsLegible.nests_reread (h : v.IsLegible) :
    ∃ c, c ≤ 2 ∧ Nests .primary c v.lexemes v.reread := by
  cases v with
  | boolean b => exact ⟨0, by omega, Expr.nests_const (v := .boolean b) trivial⟩
  | string t => exact ⟨0, by omega, Expr.nests_const (v := .string t) h⟩
  | undefined name => exact ⟨0, by omega, .leaf rfl fun p _ _ _ h => p.unary_param h⟩
  | integer n =>
    rw [lexemes, reread]
    -- the least integer has no positive counterpart, and is written as a difference
    by_cases hleast : n.toInt = -2147483648
    · rw [if_pos hleast, if_pos hleast]
      have hmost : Nests .primary 0 _ (.const (.integer 2147483647)) :=
        Expr.nests_decimal (m := 2147483647) (by decide)
      have hone : Nests .primary 0 _ (.const (.integer 1)) :=
        Expr.nests_decimal (m := 1) (by decide)
      have hnegated : Nests .unary 1 (.symbol UnaryOp.negate.symbol :: _)
          (.unary .negate (.const (.integer 2147483647))) := hmost.primary.unary
      exact ⟨2, by omega, (Nests.operator (.binary .subtract) hnegated hone.primary).parentheses⟩
    rw [if_neg hleast, if_neg hleast]
    by_cases hneg : n.toInt < 0
    · rw [if_pos hneg, if_pos hneg]
      have hsize : (-n).toInt = n.toInt.natAbs := by
        rw [toInt_neg_of_ne hleast]
        omega
      exact ⟨2, by omega, (Expr.nests_decimal hsize).enclosed_unary .negate⟩
    · rw [if_neg hneg, if_neg hneg]
      exact ⟨0, by omega, Expr.nests_decimal (by omega)⟩

/-- **A value that is read back has itself for its value.** -/
theorem IsFaithful.eval_reread (h : v.IsFaithful) (s : Snapshot) :
    Expr.eval s v.reread = .ok v := by
  cases v with
  | boolean | string => rfl
  | undefined name =>
    rw [reread, Expr.eval_param, Snapshot.lookup, h.unbound name rfl]
  | integer n =>
    rw [reread]
    by_cases hleast : n.toInt = -2147483648
    · rw [if_pos hleast]
      have hn : n = -2147483647 - 1 := Int32.toInt_inj.1 (by rw [hleast]; decide)
      rw [hn]
      rfl
    rw [if_neg hleast]
    by_cases hneg : n.toInt < 0
    · rw [if_pos hneg, Expr.eval_unary]
      exact congrArg (fun m => Except.ok (Value.integer m)) Int32.neg_neg
    · rw [if_neg hneg]
      rfl

end Value

/-! ## Expressions -/

namespace Expr

variable {e x l r : Expr} {es : List Expr} {name : String}

/-- **What is read back has the same value on every document.** -/
theorem eval_reread (h : e.BuiltFrom Value.IsFaithful IsName) (s : Snapshot) :
    eval s e.reread = eval s e := by
  have hagree : Likeness.exact.Agree (eval s e) (eval s e.reread) := by
    refine alike_rebuild (fun v hv => ?_) (fun name _ => ?_) (fun _ _ => rfl) h
    · rw [hv.eval_reread]
      exact .refl _
    · rw [eval_param]
      exact .refl _
  exact hagree.eq.symm

/-- Arguments behind the first are reread in as many levels as each of them. -/
theorem nestsMore_reread {b : Nat}
    (h : ∀ a ∈ es, ∃ c, c ≤ b ∧ Nests .primary c a.lexemes a.reread) :
    ∃ c, c ≤ b ∧ NestsMore c (lexemesMore es) (es.map reread) := by
  induction es with
  | nil => exact ⟨0, Nat.zero_le b, .done⟩
  | cons e es ih =>
    obtain ⟨⟨c, hc, he⟩, hes⟩ := List.forall_mem_cons.1 h
    obtain ⟨d, hd, hmore⟩ := ih hes
    exact ⟨max c d, Nat.max_le.2 ⟨hc, hd⟩, .more he.primary.operand hmore⟩

/-- And so are all arguments. -/
theorem nestsArguments_reread {b : Nat}
    (h : ∀ a ∈ es, ∃ c, c ≤ b ∧ Nests .primary c a.lexemes a.reread) :
    ∃ c, c ≤ b ∧ NestsArguments c (lexemesAll es) (es.map reread) := by
  cases es with
  | nil => exact ⟨0, Nat.zero_le b, .none⟩
  | cons e es =>
    obtain ⟨⟨c, hc, he⟩, hes⟩ := List.forall_mem_cons.1 h
    obtain ⟨d, hd, hmore⟩ := nestsMore_reread hes
    exact ⟨max c d, Nat.max_le.2 ⟨hc, hd⟩,
      .some e.exists_cons_lexemes he.primary.operand hmore⟩

/-- **The written form takes two levels at most for each level of the tree.** -/
theorem BuiltFrom.nests_reread (h : e.BuiltFrom Value.IsLegible IsName) :
    ∃ c, c ≤ 2 * e.depth ∧ Nests .primary c e.lexemes e.reread := by
  induction h with
  | const hv => exact hv.nests_reread
  | param _ => exact ⟨0, Nat.zero_le _, .leaf rfl fun p _ _ _ h => p.unary_param h⟩
  | @unary op x _ ih =>
    obtain ⟨c, hc, hx⟩ := ih
    refine ⟨2 + c, ?_, hx.enclosed_unary op⟩
    rw [depth]
    omega
  | @binary op l r _ _ ihl ihr =>
    obtain ⟨c, hc, hl⟩ := ihl
    obtain ⟨d, hd, hr⟩ := ihr
    refine ⟨1 + max c d, ?_, hl.enclosed_operator (.binary op) hr⟩
    rw [depth]
    omega
  | @logical op l r _ _ ihl ihr =>
    obtain ⟨c, hc, hl⟩ := ihl
    obtain ⟨d, hd, hr⟩ := ihr
    refine ⟨1 + max c d, ?_, hl.enclosed_operator (.logical op) hr⟩
    rw [depth]
    omega
  | @call name args _ _ ih =>
    -- the arguments stand side by side, so the deepest of them bounds the levels of all
    have hargs : ∀ a ∈ args, ∃ c, c ≤ 2 * depthAll args ∧ Nests .primary c a.lexemes a.reread := by
      intro a ha
      obtain ⟨c, hc, hnests⟩ := ih a ha
      have hdepth := depth_le_depthAll ha
      exact ⟨c, by omega, hnests⟩
    obtain ⟨c, hc, hnests⟩ := nestsArguments_reread hargs
    refine ⟨1 + c, ?_, ?_⟩
    · rw [depth]
      omega
    · rw [reread, rebuild_call]
      exact hnests.call

/-- The written form is read back under every limit of two levels for each level of
the tree, and one more. -/
theorem BuiltFrom.ofSource_render (h : e.BuiltFrom Value.IsLegible IsName) {limit : Nat}
    (hlimit : 2 * e.depth + 1 ≤ limit) : ofSource limit e.render = .ok e.reread := by
  obtain ⟨s, hs, hlexemes⟩ := Stream.ofSource_iff_spells.2 h.spells_render
  obtain ⟨c, hc, hnests⟩ := h.nests_reread
  have hread := hnests.primary.operand
  rw [← hlexemes] at hread
  have hdepth : e.reread.depth ≤ e.depth + 2 :=
    depth_rebuild_le Value.depth_reread_le (fun _ => by simp [depth]) e
  -- a leaf is one level deep already, so the two levels it may grow by are within the limit
  have hbounded := e.reread.boundedDepth_le_depth
  have hpos := e.depth_pos
  rw [ofSource, hs]
  exact (hread.settled_ofStream limit).ok (by omega)

/-- **Writing preserves meaning.** A tree of whatever values and names can be
written, with marks of what is no variable alone, is read back from its written
form under every limit of two levels for each of its own, and one more. What is
read has the value or the fault of the tree on every document, though it need not
be the tree. -/
theorem reread_means_the_same (o : Options) (e : Expr) (h : e.BuiltFrom Value.IsFaithful IsName)
    (hlimit : 2 * e.depth + 1 ≤ o.maxDepth) :
    ∃ e', (parse o e.render).result = .ok e' ∧ ∀ s, eval s e' = eval s e := by
  have hlegible := h.mono fun _ hv => hv.legible
  exact ⟨e.reread, hlegible.ofSource_render hlimit, eval_reread h⟩

/-- The greater of -5 and the sum of the least number and a mark is three levels deep,
so it is read back under a limit of seven, and means what it meant. -/
theorem reread_extremum_means_the_same :
    ∃ e', (parse ⟨7, false⟩ (call "max" [.const (.integer (-5)),
        .binary .add (.const (.integer (-2147483648))) (.const (.undefined "x"))]).render).result =
          .ok e' ∧
      ∀ s, eval s e' = eval s (call "max" [.const (.integer (-5)),
        .binary .add (.const (.integer (-2147483648))) (.const (.undefined "x"))]) := by
  have hx : IsName "x" := ⟨⟨'x', [], rfl, rfl, by simp⟩, by unfold IsTruthWord; decide⟩
  have hmax : IsName "max" :=
    ⟨⟨'m', ['a', 'x'], rfl, rfl, List.all_eq_true.1 rfl⟩, by unfold IsTruthWord; decide⟩
  have hinteger (n : Int32) : (Value.integer n).IsFaithful := ⟨trivial, nofun⟩
  have hmark : (Value.undefined "x").IsFaithful := by
    refine ⟨hx, fun name hname => ?_⟩
    obtain rfl := Value.undefined.inj hname
    decide
  refine reread_means_the_same ⟨7, false⟩ _ (.call hmax (List.forall_mem_cons.2 ⟨?_, ?_⟩)) ?_
  · exact .const (hinteger _)
  · exact List.forall_mem_cons.2 ⟨.binary (.const (hinteger _)) (.const hmark), by simp⟩
  · decide

end Expr
end Enablement
