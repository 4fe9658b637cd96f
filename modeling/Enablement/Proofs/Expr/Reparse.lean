import Enablement.Condition
import Enablement.Proofs.Expr.Recognition
import Enablement.Proofs.Expr.Written

/-!
# Expressions — reading what was written

Every tree that a source spells can be written, and what is written is read
as the same tree, but not under every limit. Writing adds parentheses, and
the parser takes a level for each pair of them, so the written form may need
more levels than the source did. How many it needs is known exactly
(`Expr.threshold`): an operator before its operand costs two levels, as there
is a pair of parentheses around both.
-/

namespace Enablement
namespace Expr

/-! ## The levels of the written form -/

mutual

/-- The levels of nesting that the written form takes. -/
def nesting : Expr → Nat
  | .const _ | .param _ => 0
  | .unary _ x => 2 + nesting x
  | .binary _ l r | .logical _ l r => 1 + max (nesting l) (nesting r)
  | .call _ args => 1 + nestingAll args

/-- The levels of the argument that takes most of them, and 0 for none. -/
def nestingAll : List Expr → Nat
  | [] => 0
  | e :: es => max (nesting e) (nestingAll es)

end

/-- **The least limit under which the written form is read.** -/
def threshold (e : Expr) : Nat := max e.nesting e.boundedDepth

variable {e x l r : Expr} {es : List Expr} {name : String}

/-- The digits of a number are one leaf. -/
theorem nests_decimal {n : Int32} {m : Nat} (h : n.toInt = m) :
    Nests .primary 0 [.integer (Text.decimal m)] (.const (.integer n)) :=
  .leaf rfl fun p _ _ _ _ => p.unary_integer (Text.int32OfText?_decimal h)

/-- A literal is written as one lexeme and takes no level. -/
theorem nests_const {v : Value} (h : v.IsLiteral) :
    Nests .primary (const v).nesting (const v).lexemes (const v) := by
  cases v with
  | boolean b =>
    have hword : Text.sameName (Value.boolWord b) "true" = b := by cases b <;> decide
    exact .leaf rfl fun p n q rest _ => by rw [p.unary_boolean, hword]
  | integer n =>
    have hn : (0 : Int) ≤ n.toInt := h
    rw [lexemes, Value.lexemes, if_neg (by omega), if_neg (by omega)]
    exact nests_decimal (by omega)
  | string s => exact .leaf rfl fun p _ _ _ _ => p.unary_string
  | undefined name => exact h.elim

/-- An operator is written in parentheses and takes one level more than its operands. -/
theorem nests_apply (op : Operator) (hl : Nests .primary l.nesting l.lexemes l)
    (hr : Nests .primary r.nesting r.lexemes r) :
    Nests .primary (op.apply l r).nesting (op.apply l r).lexemes (op.apply l r) := by
  have hboth := hl.enclosed_operator op hr
  cases op <;> exact hboth

/-- Nothing is written with a closing parenthesis first. -/
theorem exists_cons_lexemes (e : Expr) : ∃ t ts, e.lexemes = t :: ts ∧ t ≠ .symbol .rightParen := by
  cases e with
  | const v =>
    cases v with
    | integer n =>
      rw [lexemes, Value.lexemes]
      split
      · exact ⟨_, _, rfl, by simp⟩
      split <;> exact ⟨_, _, rfl, by simp⟩
    | _ => exact ⟨_, _, rfl, by simp⟩
  | _ => exact ⟨_, _, by rw [lexemes], by simp⟩

/-- The arguments behind the first take as many levels as the one that takes most. -/
theorem nests_more (h : ∀ a ∈ es, Nests .primary a.nesting a.lexemes a) :
    NestsMore (nestingAll es) (lexemesMore es) es := by
  induction es with
  | nil => exact .done
  | cons e es ih =>
    obtain ⟨he, hes⟩ := List.forall_mem_cons.1 h
    exact .more he.primary.operand (ih hes)

/-- A call takes one level more than its arguments. -/
theorem nests_call (h : ∀ a ∈ es, Nests .primary a.nesting a.lexemes a) :
    Nests .primary (call name es).nesting (call name es).lexemes (call name es) := by
  refine NestsArguments.call ?_
  cases es with
  | nil => exact .none
  | cons e es =>
    obtain ⟨he, hes⟩ := List.forall_mem_cons.1 h
    exact .some e.exists_cons_lexemes he.primary.operand (nests_more hes)

/-- **The written form takes as many levels as `nesting` says.** -/
theorem IsPrintable.nests (h : e.IsPrintable) : Nests .primary e.nesting e.lexemes e := by
  induction h with
  | const hv => exact nests_const hv
  | param _ => exact .leaf rfl fun p _ _ _ h => p.unary_param h
  | unary _ ih => exact ih.enclosed_unary _
  | @binary op _ _ _ _ ihl ihr => exact nests_apply (.binary op) ihl ihr
  | @logical op _ _ _ _ ihl ihr => exact nests_apply (.logical op) ihl ihr
  | call _ _ ih => exact nests_call ih

/-- The written form is read under the limits from the threshold on. -/
theorem IsPrintable.settled_ofSource (h : e.IsPrintable) (limit : Nat) :
    Settled limit (e.threshold ≤ limit) (ofSource limit e.render) e := by
  have hspells := BuiltFrom.spells_render (h.mono fun _ hv => hv.isLegible)
  obtain ⟨s, hs, hlexemes⟩ := Stream.ofSource_iff_spells.2 hspells
  have hnests := h.nests.primary.operand
  rw [← hlexemes] at hnests
  have hread := hnests.settled_ofStream limit
  rw [ofSource, hs]
  exact hread

end Expr

/-! ## What a source spells can be written -/

mutual

/-- **Lexemes of a source derive what can be written.** -/
theorem Derives.isPrintable {x : Phrase} {ts : List Lexeme} {e : Expr} :
    Derives x ts e → (∀ t ∈ ts, t.WellSpelled) → e.IsPrintable
  | .chain _ h₁ h₂, hts =>
    have hts := List.forall_mem_append.1 hts
    h₂.isPrintable (h₁.isPrintable hts.1) hts.2
  | .unary h, hts => .unary (h.isPrintable (List.forall_mem_cons.1 hts).2)
  | .primary h, hts => h.isPrintable hts
  | .integer hn, hts => by
    obtain ⟨-, hdigits, -⟩ := (List.forall_mem_cons.1 hts).1
    exact .const (Text.toInt_nonneg_of_isDigit hdigits hn)
  | .boolean, _ => .const trivial
  | .string, hts => .const (List.forall_mem_cons.1 hts).1
  | .param, hts => .param (List.forall_mem_cons.1 hts).1
  | .call h, hts => by
    obtain ⟨hname, hts⟩ := List.forall_mem_cons.1 hts
    have hargs := (List.forall_mem_append.1 (List.forall_mem_cons.1 hts).2).1
    exact .call hname (h.isPrintable hargs)
  | .parentheses h, hts =>
    h.isPrintable (List.forall_mem_append.1 (List.forall_mem_cons.1 hts).2).1

/-- A chain of printable operands is printable. -/
theorem DerivesChain.isPrintable {ops : List Operator} {y : Phrase} {l e : Expr}
    {us : List Lexeme} :
    DerivesChain ops y l us e → l.IsPrintable → (∀ t ∈ us, t.WellSpelled) → e.IsPrintable
  | .done, hl, _ => hl
  | .more _ h₁ h₂, hl, hus =>
    have hus := List.forall_mem_append.1 (List.forall_mem_cons.1 hus).2
    h₂.isPrintable (.apply _ hl (h₁.isPrintable hus.1)) hus.2

/-- So are the arguments of a call. -/
theorem DerivesArguments.isPrintable {us : List Lexeme} {es : List Expr} :
    DerivesArguments us es → (∀ t ∈ us, t.WellSpelled) → ∀ e ∈ es, e.IsPrintable
  | .none, _ => by simp
  | .some h₁ h₂, hus =>
    have hus := List.forall_mem_append.1 hus
    List.forall_mem_cons.2 ⟨h₁.isPrintable hus.1, h₂.isPrintable hus.2⟩

/-- And those behind the first. -/
theorem DerivesMore.isPrintable {us : List Lexeme} {es : List Expr} :
    DerivesMore us es → (∀ t ∈ us, t.WellSpelled) → ∀ e ∈ es, e.IsPrintable
  | .done, _ => by simp
  | .more h₁ h₂, hus =>
    have hus := List.forall_mem_append.1 (List.forall_mem_cons.1 hus).2
    List.forall_mem_cons.2 ⟨h₁.isPrintable hus.1, h₂.isPrintable hus.2⟩

end

namespace Expr

variable {limit : Nat} {source : String} {e : Expr}

/-- **A tree that was read is printable**, since it has the texts of lexemes. -/
theorem isPrintable_of_ofSource (h : ofSource limit source = .ok e) : e.IsPrintable := by
  obtain ⟨s, hs, he⟩ := bind_eq_ok h
  have hspells := Stream.ofSource_iff_spells.1 ⟨s, hs, rfl⟩
  exact (Parser.derives_of_whole _ he).isPrintable hspells.wellSpelled

/-- A tree that was read is no deeper than the limit, so only the levels of its
written form count against it. -/
theorem threshold_le_iff_of_ofSource (h : ofSource limit source = .ok e) :
    e.threshold ≤ limit ↔ e.nesting ≤ limit := by
  obtain ⟨s, -, he⟩ := bind_eq_ok h
  have hdepth := boundedDepth_le_of_ofStream he
  rw [threshold]
  omega

/-- **What parsing gives can be written, and from which limit on it is read
again.** Whatever is parsed is printable; and what is printable is read from
its written form as it was, under the limits from its threshold on, and under
all others the limit is the fault. -/
theorem isPrintable_and_reparse_threshold :
    (∀ (o : Options) (source : String) (e : Expr),
        (parse o source).result = .ok e → e.IsPrintable) ∧
      ∀ (e : Expr), e.IsPrintable → ∀ o : Options,
        (e.threshold ≤ o.maxDepth → (parse o e.render).result = .ok e) ∧
          (o.maxDepth < e.threshold →
            ∃ place, (parse o e.render).result = .error (.nestingTooDeep o.maxDepth place)) := by
  refine ⟨fun o source e h => isPrintable_of_ofSource h, fun e he o => ?_⟩
  have hs := he.settled_ofSource o.maxDepth
  exact ⟨hs.ok, fun hlt => hs.fault (Nat.not_le.2 hlt)⟩

/-- The call `max(7, (!b))` takes three levels: with them it is read from its
written form, and with two it is not. -/
theorem reparse_call :
    (parse ⟨3, false⟩ "max(7, (!b))").result =
        .ok (.call "max" [.const (.integer 7), .unary .not (.param "b")]) ∧
      ∃ place, (parse ⟨2, false⟩ "max(7, (!b))").result = .error (.nestingTooDeep 2 place) := by
  have hb : IsName "b" := ⟨⟨'b', [], rfl, rfl, by simp⟩, by unfold IsTruthWord; decide⟩
  have hmax : IsName "max" :=
    ⟨⟨'m', ['a', 'x'], rfl, rfl, List.all_eq_true.1 rfl⟩, by unfold IsTruthWord; decide⟩
  have hseven : (0 : Int) ≤ Int32.toInt 7 := by decide
  have hcall : (call "max" [.const (.integer 7), .unary .not (.param "b")]).IsPrintable := by
    refine .call hmax (List.forall_mem_cons.2 ⟨.const hseven, ?_⟩)
    exact List.forall_mem_cons.2 ⟨.unary (.param hb), by simp⟩
  have hread := isPrintable_and_reparse_threshold.2 _ hcall
  exact ⟨(hread ⟨3, false⟩).1 (by decide), (hread ⟨2, false⟩).2 (by decide)⟩

/-- **When the written form of a parsed tree is read under the same limit.** It
is exactly where the levels that it takes are within the limit; and where they
are not, the limit is the fault. -/
theorem reparse_eq_ok_iff_nesting_le (o : Options) (source : String) (e : Expr)
    (h : (parse o source).result = .ok e) :
    ((parse o e.render).result = .ok e ↔ e.nesting ≤ o.maxDepth) ∧
      (o.maxDepth < e.nesting →
        ∃ place, (parse o e.render).result = .error (.nestingTooDeep o.maxDepth place)) := by
  have hs := (isPrintable_of_ofSource h).settled_ofSource o.maxDepth
  have hlevels := threshold_le_iff_of_ofSource h
  refine ⟨⟨fun hok => ?_, fun hle => hs.ok (hlevels.2 hle)⟩, fun hlt => ?_⟩
  · refine Nat.le_of_not_lt fun hlt => ?_
    obtain ⟨place, hfault⟩ := hs.fault fun hle => Nat.not_le.2 hlt (hlevels.1 hle)
    rw [show ofSource o.maxDepth e.render = .ok e from hok] at hfault
    cases hfault
  · exact hs.fault fun hle => Nat.not_le.2 hlt (hlevels.1 hle)

/-- Two minus signs are read under a limit of 4, and again from their written
form. -/
theorem reparse_double_minus :
    (parse ⟨4, false⟩ "(-(-1))").result =
      .ok (.unary .negate (.unary .negate (.const (.integer 1)))) :=
  (reparse_eq_ok_iff_nesting_le ⟨4, false⟩ "--1"
    (.unary .negate (.unary .negate (.const (.integer 1)))) rfl).1.2 (by decide)

/-- Under a limit of 3 they are read, but not from their written form. -/
theorem not_reparse_double_minus :
    ¬ ∀ (o : Options) (source : String) (e : Expr), (parse o source).result = .ok e →
      (parse o e.render).result = .ok e := by
  intro h
  have hread := h ⟨3, false⟩ "--1" (.unary .negate (.unary .negate (.const (.integer 1)))) rfl
  have hfault : (parse ⟨3, false⟩ "(-(-1))").result = .error (.nestingTooDeep 3 4) := rfl
  have hrender : (unary .negate (.unary .negate (.const (.integer 1)))).render = "(-(-1))" := rfl
  rw [hrender, hfault] at hread
  cases hread

end Expr
end Enablement
