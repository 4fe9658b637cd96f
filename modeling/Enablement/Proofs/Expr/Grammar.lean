import Enablement.Expr

/-!
# Expressions — the grammar

Which lexemes spell which tree, as a relation and without a parser. A phrase
is a chain of operands with operators of one rank between them, applied from
left to right, or an operator before an operand, or a primary:

    or         := and ( "||" and )*
    and        := equality ( "&&" equality )*
    equality   := relational ( ( "==" | "!=" ) relational )*
    relational := additive ( ( "<" | "<=" | ">" | ">=" ) additive )*
    additive   := term ( ( "+" | "-" ) term )*
    term       := unary ( ( "*" | "/" ) unary )*
    unary      := ( "!" | "-" | "+" ) unary | primary
    primary    := INTEGER | BOOLEAN | STRING
                | NAME [ "(" [ or ( "," or )* ] ")" ]
                | "(" or ")"

No tree is deeper than its spelling is long (`Derives.depth_le_length`).
-/

namespace Enablement

/-- The phrases of the grammar. -/
inductive Phrase
  | or | and | equality | relational | additive | term | unary | primary
deriving DecidableEq, Repr

/-- What a chain is made of: the operators that stand between its operands,
and the phrase that an operand is. -/
def Phrase.chain? : Phrase → Option (List Operator × Phrase)
  | .or => some ([.logical .or], .and)
  | .and => some ([.logical .and], .equality)
  | .equality => some ([.binary .eq, .binary .ne], .relational)
  | .relational => some ([.binary .lt, .binary .le, .binary .gt, .binary .ge], .additive)
  | .additive => some ([.binary .add, .binary .subtract], .term)
  | .term => some ([.binary .multiply, .binary .divide], .unary)
  | .unary | .primary => none

/-- The rank of a phrase: that of the operators of its chain. -/
def Phrase.rank : Phrase → Nat
  | .or => 6
  | .and => 5
  | .equality => 4
  | .relational => 3
  | .additive => 2
  | .term => 1
  | .unary | .primary => 0

/-- **The phrases are the ranks of the operators**: a chain has the operators
of one rank, and its operands are chains of the rank below. -/
theorem Phrase.rank_of_chain? {x y : Phrase} {ops : List Operator} (h : x.chain? = some (ops, y)) :
    x.rank = y.rank + 1 ∧ y ≠ .primary ∧ ∀ op, op ∈ ops ↔ op.rank = x.rank := by
  cases x <;> simp only [chain?, Option.some.injEq, Prod.mk.injEq, reduceCtorEq] at h <;>
    obtain ⟨rfl, rfl⟩ := h <;>
    refine ⟨rfl, by decide, fun op => ?_⟩ <;>
    rcases op with op | op <;> cases op <;> decide

/-- A phrase of any rank but the lowest is a chain. -/
theorem Phrase.exists_chain? {x : Phrase} (h : 0 < x.rank) : ∃ ops y, x.chain? = some (ops, y) := by
  cases x <;> simp [rank, chain?] at h ⊢

mutual

/-- **The grammar**: the lexemes are a phrase, and spell the expression. -/
inductive Derives : Phrase → List Lexeme → Expr → Prop
  /-- A first operand, and operators with their right operands. -/
  | chain {x y : Phrase} {ops : List Operator} {ts us : List Lexeme} {l e : Expr} :
      x.chain? = some (ops, y) → Derives y ts l → DerivesChain ops y l us e →
      Derives x (ts ++ us) e
  /-- An operator before its operand. -/
  | unary {op : UnaryOp} {ts : List Lexeme} {e : Expr} :
      Derives .unary ts e → Derives .unary (.symbol op.symbol :: ts) (.unary op e)
  /-- A primary is an operand. -/
  | primary {ts : List Lexeme} {e : Expr} : Derives .primary ts e → Derives .unary ts e
  /-- An integer, if it fits into 32 bits. -/
  | integer {text : String} {n : Int32} :
      Text.int32OfText? text = some n → Derives .primary [.integer text] (.const (.integer n))
  /-- A truth value. -/
  | boolean {text : String} :
      Derives .primary [.boolean text] (.const (.boolean (Text.sameName text "true")))
  /-- A text. -/
  | string {text : String} : Derives .primary [.string text] (.const (.string text))
  /-- A name alone is a variable. -/
  | param {name : String} : Derives .primary [.identifier name] (.param name)
  /-- A name before parentheses is a call. -/
  | call {name : String} {ts : List Lexeme} {es : List Expr} :
      DerivesArguments ts es →
      Derives .primary
        (.identifier name :: .symbol .leftParen :: (ts ++ [.symbol .rightParen])) (.call name es)
  /-- Parentheses leave no trace in the tree. -/
  | parentheses {ts : List Lexeme} {e : Expr} :
      Derives .or ts e →
      Derives .primary (.symbol .leftParen :: (ts ++ [.symbol .rightParen])) e

/-- What follows the left operand `l` in a chain: operators out of `ops`, each
with a right operand, take it to the expression. -/
inductive DerivesChain : List Operator → Phrase → Expr → List Lexeme → Expr → Prop
  /-- No operator follows. -/
  | done {ops : List Operator} {y : Phrase} {l : Expr} : DerivesChain ops y l [] l
  /-- An operator takes all before it as its left operand. -/
  | more {ops : List Operator} {y : Phrase} {l r e : Expr} {op : Operator}
      {ts us : List Lexeme} :
      op ∈ ops → Derives y ts r → DerivesChain ops y (op.apply l r) us e →
      DerivesChain ops y l (.symbol op.symbol :: (ts ++ us)) e

/-- The arguments between the parentheses of a call. -/
inductive DerivesArguments : List Lexeme → List Expr → Prop
  /-- No argument. -/
  | none : DerivesArguments [] []
  /-- A first argument, and those after it. -/
  | some {ts us : List Lexeme} {e : Expr} {es : List Expr} :
      Derives .or ts e → DerivesMore us es → DerivesArguments (ts ++ us) (e :: es)

/-- The arguments after the first, each behind a comma. -/
inductive DerivesMore : List Lexeme → List Expr → Prop
  /-- No further argument. -/
  | done : DerivesMore [] []
  /-- A comma and an argument. -/
  | more {ts us : List Lexeme} {e : Expr} {es : List Expr} :
      Derives .or ts e → DerivesMore us es →
      DerivesMore (.symbol .comma :: (ts ++ us)) (e :: es)

end

/-! ## Chains go on -/

/-- A chain goes on with one more operator of its rank. -/
theorem DerivesChain.snoc {ops : List Operator} {y : Phrase} {l m r : Expr} {op : Operator}
    {ts us : List Lexeme} (hop : op ∈ ops) (hr : Derives y us r) :
    DerivesChain ops y l ts m →
      DerivesChain ops y l (ts ++ .symbol op.symbol :: us) (op.apply m r)
  | .done => by simpa using DerivesChain.more hop hr .done
  | .more hop' hr' h => by
    have := DerivesChain.more hop' hr' (h.snoc hop hr)
    simpa using this

/-- And so does a phrase that is one. -/
theorem Derives.snoc {ops : List Operator} {x y : Phrase} {l r : Expr} {op : Operator}
    {ts us : List Lexeme} (hc : x.chain? = some (ops, y)) (hop : op ∈ ops)
    (hl : Derives x ts l) (hr : Derives y us r) :
    Derives x (ts ++ .symbol op.symbol :: us) (op.apply l r) := by
  cases hl with
  | chain hc' hfirst hrest =>
    obtain ⟨rfl, rfl⟩ := Prod.mk.inj (Option.some.inj (hc'.symm.trans hc))
    rw [List.append_assoc]
    exact .chain hc hfirst (hrest.snoc hop hr)
  | _ => cases hc

/-! ## How much a spelling holds -/

mutual

/-- **No tree is deeper than its spelling is long.** -/
theorem Derives.depth_le_length {x : Phrase} {ts : List Lexeme} {e : Expr} :
    Derives x ts e → e.depth ≤ ts.length
  | .chain _ h₁ h₂ => by
    have hl := h₁.depth_le_length
    have he := h₂.depth_le_length
    rw [List.length_append]
    omega
  | .unary h => by
    have := h.depth_le_length
    simp only [Expr.depth, List.length_cons]
    omega
  | .primary h => h.depth_le_length
  | .integer _ | .boolean | .string | .param => by simp [Expr.depth]
  | .call h => by
    have := h.depthAll_le_length
    simp only [Expr.depth, List.length_cons, List.length_append]
    omega
  | .parentheses h => by
    have := h.depth_le_length
    simp only [List.length_cons, List.length_append]
    omega

/-- Each operator of a chain is one more level at most. -/
theorem DerivesChain.depth_le_length {ops : List Operator} {y : Phrase} {l e : Expr}
    {us : List Lexeme} : DerivesChain ops y l us e → e.depth ≤ l.depth + us.length
  | .done => by simp
  | .more _ h₁ h₂ => by
    have hr := h₁.depth_le_length
    have he := h₂.depth_le_length
    simp only [Operator.depth_apply, List.length_cons, List.length_append] at he ⊢
    omega

/-- No argument is deeper than the number of lexemes of all. -/
theorem DerivesArguments.depthAll_le_length {us : List Lexeme} {es : List Expr} :
    DerivesArguments us es → Expr.depthAll es ≤ us.length
  | .none => by simp [Expr.depthAll]
  | .some h₁ h₂ => by
    have he := h₁.depth_le_length
    have hes := h₂.depthAll_le_length
    simp only [Expr.depthAll, List.length_append]
    omega

/-- Nor is one of those behind the first. -/
theorem DerivesMore.depthAll_le_length {us : List Lexeme} {es : List Expr} :
    DerivesMore us es → Expr.depthAll es ≤ us.length
  | .done => by simp [Expr.depthAll]
  | .more h₁ h₂ => by
    have he := h₁.depth_le_length
    have hes := h₂.depthAll_le_length
    simp only [Expr.depthAll, List.length_cons, List.length_append]
    omega

end

/-- **No phrase starts with a closing parenthesis**, nor is one empty: so what
follows the opening one of a call tells whether there are arguments. -/
theorem Derives.exists_cons {x : Phrase} {ts : List Lexeme} {e : Expr} :
    Derives x ts e → ∃ t us, ts = t :: us ∧ t ≠ .symbol .rightParen
  | .chain _ h _ => by
    obtain ⟨t, us, rfl, ht⟩ := h.exists_cons
    exact ⟨t, _, rfl, ht⟩
  | @Derives.unary op _ _ _ => ⟨_, _, rfl, by cases op <;> simp [UnaryOp.symbol]⟩
  | .primary h => h.exists_cons
  | .integer _ | .boolean | .string | .param | .call _ | .parentheses _ => ⟨_, _, rfl, by simp⟩

end Enablement
