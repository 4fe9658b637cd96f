import Enablement.Expr.Parse

/-!
# Parsing — on what a step depends

Where the lexemes are in order, only the limit can keep a step of the parser
from its result. A computation is `Settled` by a condition if it gives a
certain result where the condition holds, and the fault of the limit where it
does not. Conditions add up along a parse (`Settled.bind`), and there is one
lemma for each step of the parser. `Stops` says of what is left of the input
that no operator, and no call, takes it in.
-/

namespace Enablement

/-! ## Settled computations -/

section

variable {α β : Type}

/-- The result is `a` under the condition, and else the fault of the limit. -/
structure Settled (limit : Nat) (c : Prop) (r : Except Fault α) (a : α) : Prop where
  /-- The result where the condition holds. -/
  ok : c → r = .ok a
  /-- The fault where it does not. -/
  fault : ¬ c → ∃ place, r = .error (.nestingTooDeep limit place)

namespace Settled

variable {limit : Nat} {c d : Prop} {r : Except Fault α} {a : α} {b : β}
variable {f : α → Except Fault β}

/-- A result that depends on nothing. -/
theorem of_eq (h : r = .ok a) : Settled limit True r a :=
  ⟨fun _ => h, fun hc => absurd trivial hc⟩

/-- Conditions that come to the same settle the same. -/
theorem congr (h : Settled limit c r a) (hcd : c ↔ d) : Settled limit d r a :=
  ⟨fun hd => h.ok (hcd.2 hd), fun hd => h.fault fun hc => hd (hcd.1 hc)⟩

/-- **Two steps in a row depend on both conditions**, and the second step may
count on the first. -/
theorem bind (h : Settled limit c r a) (hf : c → Settled limit d (f a) b) :
    Settled limit (c ∧ d) (r >>= f) b := by
  constructor
  · rintro ⟨hc, hd⟩
    rw [h.ok hc]
    exact (hf hc).ok hd
  · intro hcd
    by_cases hc : c
    · rw [h.ok hc]
      exact (hf hc).fault fun hd => hcd ⟨hc, hd⟩
    · obtain ⟨place, hr⟩ := h.fault hc
      exact ⟨place, by rw [hr]; rfl⟩

/-- What is only computed from a result depends on nothing else. -/
theorem bind_ok (h : Settled limit c r a) (hf : f a = .ok b) : Settled limit c (r >>= f) b :=
  (h.bind fun _ => of_eq hf).congr (and_true c).to_iff

end Settled

end

/-! ## What ends an expression -/

/-- What is left of the input starts with no operator of rank `k` or below,
and with no parenthesis that would make a call of the name before it. -/
def Stops (k : Nat) (rest : Input) : Prop :=
  ∀ t ∈ rest.head?, t.val ≠ .symbol .leftParen ∧
    ∀ op : Operator, t.val = .symbol op.symbol → k < op.rank

section

variable {j k : Nat} {q : Nat} {rest : Input}

/-- The end of the input stops everything. -/
theorem stops_nil : Stops k [] := by simp [Stops]

/-- What stops the operators up to a rank stops those of the ranks below. -/
theorem Stops.mono (h : Stops k rest) (hjk : j ≤ k) : Stops j rest :=
  fun t ht => ⟨(h t ht).1, fun op hop => Nat.lt_of_le_of_lt hjk ((h t ht).2 op hop)⟩

/-- A symbol that is neither an operator nor an opening parenthesis ends
everything. -/
theorem stops_symbol {s : Symbol} (hs : s ≠ .leftParen) (ho : Operator.ofSymbol? s = none) :
    Stops k (⟨.symbol s, q⟩ :: rest) := by
  intro t ht
  obtain rfl := Option.some.inj ht
  refine ⟨fun h => hs (Lexeme.symbol.inj h), fun op hop => ?_⟩
  rw [Operator.ofSymbol?_eq_some_iff.2 (Lexeme.symbol.inj hop).symm] at ho
  cases ho

/-- An operator ends what binds more tightly than it. -/
theorem stops_operator {op : Operator} (h : k < op.rank) :
    Stops k (⟨.symbol op.symbol, q⟩ :: rest) := by
  intro t ht
  obtain rfl := Option.some.inj ht
  have hop : Operator.ofSymbol? op.symbol = some op := Operator.ofSymbol?_eq_some_iff.2 rfl
  constructor
  · intro he
    rw [Lexeme.symbol.inj he] at hop
    cases hop
  · intro op' he
    have hop' := Operator.ofSymbol?_eq_some_iff.2 (Lexeme.symbol.inj he).symm
    rw [hop] at hop'
    rwa [← Option.some.inj hop']

end

namespace Parser

/-! ## Operators in the input -/

section

variable {k q : Nat} {op : Operator} {ts us rest : Input}

/-- An operator of the rank is found. -/
theorem operatorAt_symbol (h : op.rank = k) :
    operatorAt k (⟨.symbol op.symbol, q⟩ :: ts) = some (op, q, ts) := by
  simp [operatorAt, Operator.ofSymbol?_eq_some_iff.2 rfl, h]

/-- What is found is an operator of the rank, in front. -/
theorem operatorAt_eq_some (h : operatorAt k ts = some (op, q, us)) :
    ts = ⟨.symbol op.symbol, q⟩ :: us ∧ op.rank = k := by
  unfold operatorAt at h
  split at h
  next s place ts' =>
    split at h
    next op' hop =>
      split at h
      next hk =>
        obtain ⟨rfl, rfl, rfl⟩ : op' = op ∧ place = q ∧ ts' = us := by simpa using h
        rw [Operator.ofSymbol?_eq_some_iff.1 hop]
        exact ⟨rfl, hk⟩
      next => cases h
    next => cases h
  next => cases h

/-- Where the operators of the rank are stopped, none is found. -/
theorem operatorAt_of_stops (h : Stops k rest) : operatorAt k rest = none := by
  cases ho : operatorAt k rest with
  | none => rfl
  | some o =>
    obtain ⟨op, q, us⟩ := o
    obtain ⟨rfl, hk⟩ := operatorAt_eq_some ho
    have := (h _ rfl).2 op rfl
    omega

end

/-! ## The steps of a parser -/

variable (p : Parser) {step : Parse Expr} {c d : Prop} {ts us rest : Input}
variable {k n q q' : Nat} {x l r e : Expr} {es : List Expr}

/-- A tree is let through just if it is not too deep. -/
theorem settled_bounded (place : Nat) (e : Expr) :
    Settled p.limit (e.depth ≤ p.limit) (p.bounded place e) e := by
  unfold bounded
  constructor
  · intro h
    rw [if_pos h]
  · intro h
    exact ⟨place, by rw [if_neg h]⟩

/-- No operator follows: the left operand is all. -/
theorem extend_of_stops (h : Stops k rest) : p.extend k step n l rest = .ok (l, rest) := by
  cases n with
  | zero => rfl
  | succ n => rw [extend, operatorAt_of_stops h]

/-- An operator follows, and then its right operand and what more there is. -/
theorem settled_extend {op : Operator} (hk : op.rank = k)
    (hr : Settled p.limit c (step ts) (r, us))
    (he : (op.apply l r).depth ≤ p.limit →
      Settled p.limit d (p.extend k step n (op.apply l r) us) (e, rest)) :
    Settled p.limit (c ∧ (op.apply l r).depth ≤ p.limit ∧ d)
      (p.extend k step (n + 1) l (⟨.symbol op.symbol, q⟩ :: ts)) (e, rest) := by
  rw [extend, operatorAt_symbol hk]
  exact hr.bind fun _ => (p.settled_bounded q _).bind he

/-- An operand that no operator of a rank up to `k` follows is also an
expression of rank `k`. -/
theorem settled_ranked_of_le {j : Nat} (hjk : j ≤ k) (hrest : Stops k rest)
    (h : Settled p.limit c (p.ranked step j ts) (e, rest)) :
    Settled p.limit c (p.ranked step k ts) (e, rest) := by
  induction hjk with
  | refl => exact h
  | step _ ih => exact (ih (hrest.mono (Nat.le_succ _))).bind_ok (p.extend_of_stops hrest)

/-- **Two operands and an operator between them**, which takes up both where
no operator follows. -/
theorem settled_expression {op : Operator} (hsize : 0 < p.size)
    (hrest : Stops Operator.topRank rest)
    (hl : Settled p.limit c (step ts) (l, ⟨.symbol op.symbol, q⟩ :: us))
    (hr : Settled p.limit d (step us) (r, rest)) :
    Settled p.limit (c ∧ d ∧ (op.apply l r).depth ≤ p.limit) (p.expression step ts)
      (op.apply l r, rest) := by
  obtain ⟨k, hk⟩ : ∃ k, op.rank = k + 1 := ⟨op.rank - 1, by have := op.rank_pos; omega⟩
  obtain ⟨n, hn⟩ : ∃ n, p.size = n + 1 := ⟨p.size - 1, by omega⟩
  have htop : k + 1 ≤ Operator.topRank := hk ▸ op.rank_le_topRank
  -- both operands reach rank `k`, the left one because the operator is of a higher rank
  have hl' := p.settled_ranked_of_le (Nat.zero_le k) (stops_operator (by omega)) hl
  have hr' := p.settled_ranked_of_le (Nat.zero_le k) (hrest.mono (by omega)) hr
  have hdone : Settled p.limit True (p.extend (k + 1) (p.ranked step k) n (op.apply l r) rest)
      (op.apply l r, rest) := .of_eq (p.extend_of_stops (hrest.mono htop))
  have hchain : Settled p.limit (c ∧ d ∧ (op.apply l r).depth ≤ p.limit ∧ True)
      (p.ranked step (k + 1) ts) (op.apply l r, rest) := by
    refine hl'.bind fun _ => ?_
    rw [hn]
    exact p.settled_extend hk hr' fun _ => hdone
  rw [and_true] at hchain
  exact p.settled_ranked_of_le htop hrest hchain

/-! ## Operands -/

/-- An operator before its operand takes a level and has to keep to the depth. -/
theorem settled_unary_operator {op : UnaryOp}
    (h : Settled p.limit c (p.unary (n - 1) ts) (x, rest)) :
    Settled p.limit (0 < n ∧ c ∧ (Expr.unary op x).depth ≤ p.limit)
      (p.unary n (⟨.symbol op.symbol, q⟩ :: ts)) (.unary op x, rest) := by
  have hop : UnaryOp.ofSymbol? op.symbol = some op := UnaryOp.ofSymbol?_eq_some_iff.2 rfl
  cases n with
  | zero => exact ⟨fun hc => by omega, fun _ => ⟨p.offset ts, by rw [unary, operand, hop]; rfl⟩⟩
  | succ n =>
    have hx := (p.settled_bounded q (.unary op x)).bind_ok (f := fun e => .ok (e, rest)) rfl
    rw [unary, operand, hop]
    exact (h.bind fun _ => hx).congr (by simp)

/-- Parentheses take a level and have no depth. -/
theorem settled_unary_parentheses
    (h : Settled p.limit c (p.expression (p.unary (n - 1)) ts)
      (x, ⟨.symbol .rightParen, q'⟩ :: rest)) :
    Settled p.limit (0 < n ∧ c) (p.unary n (⟨.symbol .leftParen, q⟩ :: ts)) (x, rest) := by
  cases n with
  | zero => exact ⟨fun hc => by omega, fun _ => ⟨p.offset ts, rfl⟩⟩
  | succ n =>
    have hx := h.bind_ok (f := fun a => do
      let ts ← p.expect .rightParen .closingParen a.2
      .ok (a.1, ts)) rfl
    exact hx.congr (by simp)

/-- A call takes a level and has to keep to the depth. -/
theorem settled_unary_call {name : String}
    (h : Settled p.limit c (p.arguments (p.expression (p.unary (n - 1))) ts) (es, rest)) :
    Settled p.limit (0 < n ∧ c ∧ (Expr.call name es).depth ≤ p.limit)
      (p.unary n (⟨.identifier name, q⟩ :: ⟨.symbol .leftParen, q'⟩ :: ts))
      (.call name es, rest) := by
  cases n with
  | zero => exact ⟨fun hc => by omega, fun _ => ⟨p.offset ts, rfl⟩⟩
  | succ n =>
    have hx := (p.settled_bounded q (.call name es)).bind_ok (f := fun e => .ok (e, rest)) rfl
    exact (h.bind fun _ => hx).congr (by simp)

/-- A name that is not called is that of a variable. -/
theorem unary_param {name : String} (h : Stops k rest) :
    p.unary n (⟨.identifier name, q⟩ :: rest) = .ok (.param name, rest) := by
  cases n <;> rw [unary, operand] <;> exact fun q' ts he => (h _ (by rw [he]; rfl)).1 rfl

/-- The word for a truth value is read in any case of letters. -/
theorem unary_boolean {text : String} :
    p.unary n (⟨.boolean text, q⟩ :: rest) =
      .ok (.const (.boolean (Text.sameName text "true")), rest) := by
  cases n <;> rfl

/-- An integer that fits is read. -/
theorem unary_integer {text : String} {i : Int32} (h : Text.int32OfText? text = some i) :
    p.unary n (⟨.integer text, q⟩ :: rest) = .ok (.const (.integer i), rest) := by
  cases n <;> rw [unary, operand, h]

/-- A string is read as it is. -/
theorem unary_string {text : String} :
    p.unary n (⟨.string text, q⟩ :: rest) = .ok (.const (.string text), rest) := by
  cases n <;> rfl

/-! ## Arguments -/

/-- A closing parenthesis ends the arguments. -/
theorem moreArguments_rightParen :
    p.moreArguments step n (⟨.symbol .rightParen, q⟩ :: rest) = .ok ([], rest) := by
  cases n <;> rfl

/-- An argument behind a comma depends on what it and the ones behind it depend on. -/
theorem settled_moreArguments (he : Settled p.limit c (step ts) (e, us))
    (hes : Settled p.limit d (p.moreArguments step n us) (es, rest)) :
    Settled p.limit (c ∧ d) (p.moreArguments step (n + 1) (⟨.symbol .comma, q⟩ :: ts))
      (e :: es, rest) :=
  he.bind fun _ => hes.bind_ok rfl

/-- Arguments that end at once are none. -/
theorem arguments_rightParen :
    p.arguments step (⟨.symbol .rightParen, q⟩ :: rest) = .ok ([], rest) := rfl

/-- The first argument and those behind it depend on what each of them depends on. -/
theorem settled_arguments (hts : ∀ q us, ts ≠ ⟨.symbol .rightParen, q⟩ :: us)
    (he : Settled p.limit c (step ts) (e, us))
    (hes : Settled p.limit d (p.moreArguments step p.size us) (es, rest)) :
    Settled p.limit (c ∧ d) (p.arguments step ts) (e :: es, rest) := by
  rw [arguments]
  · exact he.bind fun _ => hes.bind_ok rfl
  · exact hts

end Parser
end Enablement
