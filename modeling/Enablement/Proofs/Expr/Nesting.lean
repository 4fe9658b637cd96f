import Enablement.Proofs.Expr.Grammar
import Enablement.Proofs.Expr.Settling

/-!
# Parsing — the levels that a phrase takes

A parser asks its limit twice: a level of nesting is taken by every operator
before an operand, by every pair of parentheses and by every argument list,
and no node may be deeper than the limit. So to lexemes in order belongs a
number of levels: they are read where that many are left and the tree is not
too deep, and nowhere else (`Nests`). There is one lemma for each production
of the grammar, and each says what its phrase adds to the number.
-/

namespace Enablement

/-- The depth that a limit bounds: that of a node built from others. -/
def Expr.boundedDepth : Expr → Nat
  | .const _ | .param _ => 0
  | e => e.depth

/-- A leaf is bounded by nothing, and any other tree by its depth. -/
theorem Expr.boundedDepth_le_depth (e : Expr) : e.boundedDepth ≤ e.depth := by
  cases e <;> simp [boundedDepth]

/-- An operator is bounded by the depth that it has. -/
@[simp] theorem Operator.boundedDepth_apply (op : Operator) (l r : Expr) :
    (op.apply l r).boundedDepth = 1 + max l.depth r.depth := by
  cases op <;> simp [apply, Expr.boundedDepth, Expr.depth]

/-- What starts with a lexeme starts with it at some offset. -/
theorem eq_cons_of_map_val {us : Input} {t : Lexeme} {ts : List Lexeme}
    (h : us.map (·.val) = t :: ts) : ∃ q vs, us = ⟨t, q⟩ :: vs ∧ vs.map (·.val) = ts := by
  obtain ⟨⟨v, q⟩, vs, rfl, rfl, rfl⟩ := List.map_eq_cons_iff.1 h
  exact ⟨q, vs, rfl, rfl⟩

/-! ## What a number of levels means -/

/-- **The phrase takes `c` levels**: with so many left, and under a limit on
depth that the tree keeps, it is read; else the limit is the fault. -/
def Nests (x : Phrase) (c : Nat) (ts : List Lexeme) (e : Expr) : Prop :=
  ∀ (p : Parser) (n : Nat) (us rest : Input), us.map (·.val) = ts → us.length ≤ p.size →
    Stops x.rank rest →
    Settled p.limit (c ≤ n ∧ e.boundedDepth ≤ p.limit)
      (p.ranked (p.unary n) x.rank (us ++ rest)) (e, rest)

/-- The same of what follows the left operand `l` in a chain, whose operands
are the phrase `y`. -/
structure NestsChain (y : Phrase) (c : Nat) (l : Expr) (ts : List Lexeme) (e : Expr) : Prop where
  /-- It starts with an operator of the chain, if with anything. -/
  stops : ∀ us rest : Input, us.map (·.val) = ts → Stops (y.rank + 1) rest →
    Stops y.rank (us ++ rest)
  /-- It makes the tree no less deep. -/
  deepens : l.boundedDepth ≤ e.boundedDepth
  /-- It is read, where the left operand is not too deep. -/
  settled : ∀ (p : Parser) (n k : Nat) (us rest : Input), us.map (·.val) = ts →
    us.length ≤ p.size → us.length ≤ k → Stops (y.rank + 1) rest → l.boundedDepth ≤ p.limit →
    Settled p.limit (c ≤ n ∧ e.boundedDepth ≤ p.limit)
      (p.extend (y.rank + 1) (p.ranked (p.unary n) y.rank) k l (us ++ rest)) (e, rest)

/-- The same of the arguments of a call, up to the closing parenthesis. -/
def NestsArguments (c : Nat) (ts : List Lexeme) (es : List Expr) : Prop :=
  ∀ (p : Parser) (n q : Nat) (us rest : Input), us.map (·.val) = ts → us.length ≤ p.size →
    Settled p.limit (c ≤ n ∧ ∀ e ∈ es, e.boundedDepth ≤ p.limit)
      (p.arguments (p.expression (p.unary n)) (us ++ ⟨.symbol .rightParen, q⟩ :: rest)) (es, rest)

/-- The same of the arguments after the first. -/
structure NestsMore (c : Nat) (ts : List Lexeme) (es : List Expr) : Prop where
  /-- What follows an argument ends it. -/
  stops : ∀ (q : Nat) (us rest : Input), us.map (·.val) = ts →
    Stops Operator.topRank (us ++ ⟨.symbol .rightParen, q⟩ :: rest)
  /-- They are read. -/
  settled : ∀ (p : Parser) (n k q : Nat) (us rest : Input), us.map (·.val) = ts →
    us.length ≤ p.size → us.length ≤ k →
    Settled p.limit (c ≤ n ∧ ∀ e ∈ es, e.boundedDepth ≤ p.limit)
      (p.moreArguments (p.expression (p.unary n)) k (us ++ ⟨.symbol .rightParen, q⟩ :: rest))
      (es, rest)

variable {x y : Phrase} {c d : Nat} {t : Lexeme} {ts us : List Lexeme} {e l r : Expr}
variable {es : List Expr}

/-! ## Chains -/

/-- An operand alone is a chain. -/
theorem NestsChain.done : NestsChain y 0 l [] l where
  stops us rest hus hrest := by
    rw [List.map_eq_nil_iff.1 hus]
    exact hrest.mono (Nat.le_succ _)
  deepens := Nat.le_refl _
  settled p n k us rest hus _ _ hrest hl := by
    rw [List.map_eq_nil_iff.1 hus]
    exact (Settled.of_eq (p.extend_of_stops hrest)).congr (by simp [hl])

/-- An operator and its right operand take the levels of the operand. -/
theorem NestsChain.more {op : Operator} (hop : op.rank = y.rank + 1) (hr : Nests y c ts r)
    (he : NestsChain y d (op.apply l r) us e) :
    NestsChain y (max c d) l (.symbol op.symbol :: (ts ++ us)) e where
  stops vs rest hvs _ := by
    obtain ⟨q, ws, rfl, -⟩ := eq_cons_of_map_val hvs
    exact stops_operator (by omega)
  deepens := by
    have hle := he.deepens
    have hl := l.boundedDepth_le_depth
    rw [Operator.boundedDepth_apply] at hle
    omega
  settled p n k vs rest hvs hs hk hrest hl := by
    obtain ⟨q, ws, rfl, hws⟩ := eq_cons_of_map_val hvs
    obtain ⟨as, bs, rfl, has, hbs⟩ := List.map_eq_append_iff.1 hws
    simp only [List.length_cons, List.length_append] at hs hk
    obtain ⟨k, rfl⟩ : ∃ j, k = j + 1 := ⟨k - 1, by omega⟩
    rw [List.cons_append, List.append_assoc]
    have hright := hr p n as (bs ++ rest) has (by omega) (he.stops bs rest hbs hrest)
    have hmore := p.settled_extend (q := q) hop hright fun hdepth =>
      he.settled p n k bs rest hbs (by omega) (by omega) hrest
        (Nat.le_trans (Expr.boundedDepth_le_depth _) hdepth)
    -- the bounds on the right operand and on the new node follow from that on the tree
    have hle := he.deepens
    have hr' := r.boundedDepth_le_depth
    rw [Operator.boundedDepth_apply] at hle
    refine hmore.congr ?_
    rw [Operator.depth_apply]
    omega

/-- **A chain takes the levels of what needs most of them in it.** -/
theorem Nests.chain {ops : List Operator} (hc : x.chain? = some (ops, y)) (hl : Nests y c ts l)
    (he : NestsChain y d l us e) : Nests x (max c d) (ts ++ us) e := by
  intro p n vs rest hvs hs hrest
  obtain ⟨as, bs, rfl, has, hbs⟩ := List.map_eq_append_iff.1 hvs
  rw [List.length_append] at hs
  rw [(Phrase.rank_of_chain? hc).1] at hrest ⊢
  rw [List.append_assoc]
  have hleft := hl p n as (bs ++ rest) has (by omega) (he.stops bs rest hbs hrest)
  have hchain := hleft.bind (f := fun a => p.extend (y.rank + 1) _ p.size a.1 a.2) fun h =>
    he.settled p n p.size bs rest hbs (by omega) (by omega) hrest h.2
  have hle := he.deepens
  exact hchain.congr (by omega)

/-! ## Operands -/

/-- A leaf that is read from one lexeme takes no level. -/
theorem Nests.leaf (he : e.boundedDepth = 0) (h : ∀ (p : Parser) (n q : Nat) (rest : Input),
    Stops 0 rest → p.unary n (⟨t, q⟩ :: rest) = .ok (e, rest)) : Nests .primary 0 [t] e := by
  intro p n vs rest hvs _ hrest
  obtain ⟨q, ws, rfl, hws⟩ := eq_cons_of_map_val hvs
  rw [List.map_eq_nil_iff.1 hws]
  exact (Settled.of_eq (h p n q rest hrest)).congr (by simp [he])

/-- An operand is read by one step, as a primary is. -/
theorem Nests.primary (h : Nests .primary c ts e) : Nests .unary c ts e := h

/-- An operator before an operand takes one more level. -/
theorem Nests.unary {op : UnaryOp} (h : Nests .unary c ts e) :
    Nests .unary (1 + c) (.symbol op.symbol :: ts) (.unary op e) := by
  intro p n vs rest hvs hs hrest
  obtain ⟨q, ws, rfl, hws⟩ := eq_cons_of_map_val hvs
  rw [List.length_cons] at hs
  have hx := h p (n - 1) ws rest hws (by omega) hrest
  have hle := e.boundedDepth_le_depth
  have hdepth : (Expr.unary op e).depth = 1 + e.depth := by rw [Expr.depth]
  have hbounded : (Expr.unary op e).boundedDepth = (Expr.unary op e).depth := rfl
  exact Settled.congr (p.settled_unary_operator hx) (by omega)

/-- Parentheses take one more level, and leave no other trace. -/
theorem Nests.parentheses (h : Nests .or c ts e) :
    Nests .primary (1 + c) (.symbol .leftParen :: (ts ++ [.symbol .rightParen])) e := by
  intro p n vs rest hvs hs hrest
  obtain ⟨q, ws, rfl, hws⟩ := eq_cons_of_map_val hvs
  obtain ⟨as, bs, rfl, has, hbs⟩ := List.map_eq_append_iff.1 hws
  obtain ⟨q', cs, rfl, hcs⟩ := eq_cons_of_map_val hbs
  obtain rfl := List.map_eq_nil_iff.1 hcs
  simp only [List.length_cons, List.length_append] at hs
  rw [List.cons_append, List.append_assoc]
  have hx := p.settled_unary_parentheses (q := q)
    (h p (n - 1) as (⟨.symbol .rightParen, q'⟩ :: rest) has (by omega)
      (stops_symbol (by simp) rfl))
  exact hx.congr (by omega)

/-- A call takes one more level than its arguments. -/
theorem NestsArguments.call {name : String} (h : NestsArguments c ts es) :
    Nests .primary (1 + c)
      (.identifier name :: .symbol .leftParen :: (ts ++ [.symbol .rightParen]))
      (.call name es) := by
  intro p n vs rest hvs hs hrest
  obtain ⟨q, ws, rfl, hws⟩ := eq_cons_of_map_val hvs
  obtain ⟨q₁, ws', rfl, hws'⟩ := eq_cons_of_map_val hws
  obtain ⟨as, bs, rfl, has, hbs⟩ := List.map_eq_append_iff.1 hws'
  obtain ⟨q₂, cs, rfl, hcs⟩ := eq_cons_of_map_val hbs
  obtain rfl := List.map_eq_nil_iff.1 hcs
  simp only [List.length_cons, List.length_append] at hs
  rw [List.cons_append, List.cons_append, List.append_assoc]
  have hx := h p (n - 1) q₂ as rest has (by omega)
  -- no argument is too deep where the call is not
  have hargs : (Expr.call name es).depth ≤ p.limit → ∀ e ∈ es, e.boundedDepth ≤ p.limit := by
    intro hdepth e he
    have hle := Expr.depth_le_depthAll he
    have he' := e.boundedDepth_le_depth
    rw [Expr.depth] at hdepth
    omega
  refine Settled.congr (p.settled_unary_call hx)
    ⟨fun hcond => ⟨by omega, hcond.2.2⟩, fun hcond => ?_⟩
  exact ⟨by omega, ⟨by omega, hargs hcond.2⟩, hcond.2⟩

/-- An operand alone is an expression. -/
theorem Nests.operand (h : Nests .unary c ts e) : Nests .or c ts e :=
  fun p n us rest hus hs hrest => p.settled_ranked_of_le (Nat.zero_le _) hrest
    (h p n us rest hus hs (hrest.mono (Nat.zero_le _)))

/-- Two operands with an operator between them are an expression, whatever the
operator is. -/
theorem Nests.operator (op : Operator) (hl : Nests .unary c ts l) (hr : Nests .unary d us r) :
    Nests .or (max c d) (ts ++ .symbol op.symbol :: us) (op.apply l r) := by
  intro p n vs rest hvs hs hrest
  obtain ⟨as, bs, rfl, has, hbs⟩ := List.map_eq_append_iff.1 hvs
  obtain ⟨q, cs, rfl, hcs⟩ := eq_cons_of_map_val hbs
  rw [List.length_append, List.length_cons] at hs
  rw [List.append_assoc, List.cons_append]
  have hleft := hl p n as (⟨.symbol op.symbol, q⟩ :: (cs ++ rest)) has (by omega)
    (stops_operator op.rank_pos)
  have hright := hr p n cs rest hcs (by omega) (hrest.mono (Nat.zero_le _))
  have hl' := l.boundedDepth_le_depth
  have hr' := r.boundedDepth_le_depth
  refine Settled.congr (p.settled_expression (by omega) hrest hleft hright) ?_
  rw [Operator.boundedDepth_apply, Operator.depth_apply]
  omega

/-- An operator before an operand, with parentheses around both, takes two more
levels. -/
theorem Nests.enclosed_unary (op : UnaryOp) (h : Nests .primary c ts e) :
    Nests .primary (2 + c)
      (.symbol .leftParen :: .symbol op.symbol :: (ts ++ [.symbol .rightParen])) (.unary op e) := by
  have hunary : Nests .unary (1 + c) (.symbol op.symbol :: ts) (.unary op e) := h.primary.unary
  have hparens := hunary.operand.parentheses
  rwa [← Nat.add_assoc] at hparens

/-- And one between two operands takes one more. -/
theorem Nests.enclosed_operator (op : Operator) (hl : Nests .primary c ts l)
    (hr : Nests .primary d us r) :
    Nests .primary (1 + max c d)
      (.symbol .leftParen :: (ts ++ .symbol op.symbol :: (us ++ [.symbol .rightParen])))
      (op.apply l r) := by
  have hboth := (Nests.operator op hl.primary hr.primary).parentheses
  rwa [List.append_assoc, List.cons_append] at hboth

/-! ## Arguments -/

/-- The closing parenthesis takes no level. -/
theorem NestsMore.done : NestsMore 0 [] [] where
  stops q us rest hus := by
    rw [List.map_eq_nil_iff.1 hus]
    exact stops_symbol (by simp) rfl
  settled p n k q us rest hus _ _ := by
    rw [List.map_eq_nil_iff.1 hus]
    exact (Settled.of_eq p.moreArguments_rightParen).congr (by simp)

/-- A further argument takes its own levels. -/
theorem NestsMore.more (he : Nests .or c ts e) (hes : NestsMore d us es) :
    NestsMore (max c d) (.symbol .comma :: (ts ++ us)) (e :: es) where
  stops q vs rest hvs := by
    obtain ⟨q', ws, rfl, -⟩ := eq_cons_of_map_val hvs
    exact stops_symbol (by simp) rfl
  settled p n k q vs rest hvs hs hk := by
    obtain ⟨q', ws, rfl, hws⟩ := eq_cons_of_map_val hvs
    obtain ⟨as, bs, rfl, has, hbs⟩ := List.map_eq_append_iff.1 hws
    simp only [List.length_cons, List.length_append] at hs hk
    obtain ⟨k, rfl⟩ : ∃ j, k = j + 1 := ⟨k - 1, by omega⟩
    rw [List.cons_append, List.append_assoc]
    have hfirst := he p n as _ has (by omega) (hes.stops q bs rest hbs)
    have hmore := hes.settled p n k q bs rest hbs (by omega) (by omega)
    refine (p.settled_moreArguments hfirst hmore).congr ?_
    rw [List.forall_mem_cons, Nat.max_le, and_and_and_comm]

/-- Nor does it where there is no argument. -/
theorem NestsArguments.none : NestsArguments 0 [] [] := by
  intro p n q us rest hus _
  rw [List.map_eq_nil_iff.1 hus]
  exact (Settled.of_eq p.arguments_rightParen).congr (by simp)

/-- The arguments take the levels of the one that needs most of them; the
first does not start with the closing parenthesis. -/
theorem NestsArguments.some (ht : ∃ t vs, ts = t :: vs ∧ t ≠ .symbol .rightParen)
    (he : Nests .or c ts e) (hes : NestsMore d us es) :
    NestsArguments (max c d) (ts ++ us) (e :: es) := by
  intro p n q vs rest hvs hs
  obtain ⟨as, bs, rfl, has, hbs⟩ := List.map_eq_append_iff.1 hvs
  rw [List.length_append] at hs
  rw [List.append_assoc]
  have hfirst := he p n as _ has (by omega) (hes.stops q bs rest hbs)
  have hmore := hes.settled p n p.size q bs rest hbs (by omega) (by omega)
  have hne : ∀ q' ws, as ++ (bs ++ ⟨.symbol .rightParen, q⟩ :: rest) ≠
      ⟨.symbol .rightParen, q'⟩ :: ws := by
    obtain ⟨t, ts, rfl, ht⟩ := ht
    obtain ⟨q', ws, rfl, -⟩ := eq_cons_of_map_val has
    intro q₁ ws₁ h
    rw [List.cons_append] at h
    exact ht (congrArg Located.val (List.cons.inj h).1)
  refine (p.settled_arguments hne hfirst hmore).congr ?_
  rw [List.forall_mem_cons, Nat.max_le, and_and_and_comm]

/-! ## Whole inputs -/

/-- **A stream is read under the limits that are not below a threshold**, and
under all others the limit is the fault. -/
theorem Nests.settled_ofStream {s : Stream} (h : Nests .or c (s.lexemes.map (·.val)) e)
    (limit : Nat) : Settled limit (max c e.boundedDepth ≤ limit) (Expr.ofStream limit s) e := by
  have hread := h ⟨limit, s.stop, s.lexemes.length⟩ limit s.lexemes [] rfl (Nat.le_refl _) stops_nil
  rw [List.append_nil] at hread
  refine Settled.congr (c := c ≤ limit ∧ e.boundedDepth ≤ limit) ?_ (by omega)
  rw [Expr.ofStream, Parser.whole]
  exact hread.bind_ok rfl

end Enablement
