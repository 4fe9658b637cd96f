import Enablement.Proofs.Expr.Grammar
import Enablement.Proofs.Expr.Settling

/-!
# Parsing — what is read is spelled

A step of the parser is `Sound` for a phrase if it reads from the front of the
input lexemes that are this phrase and spell its result, and leaves the rest
untouched. Each step is, provided the steps it is given are, so an expression
that is read derives from the lexemes that were taken (`derives_of_whole`).
-/

namespace Enablement

/-- The result of two steps in a row comes from a result of the first. -/
theorem bind_eq_ok {α β : Type} {r : Except Fault α} {f : α → Except Fault β} {b : β}
    (h : r >>= f = .ok b) : ∃ a, r = .ok a ∧ f a = .ok b := by
  cases r with
  | error e => cases h
  | ok a => exact ⟨a, rfl, h⟩

/-- The second step is at fault, or the first one is. -/
theorem bind_eq_error {α β : Type} {r : Except Fault α} {f : α → Except Fault β} {e : Fault}
    (h : r >>= f = .error e) : r = .error e ∨ ∃ a, r = .ok a ∧ f a = .error e := by
  cases r with
  | error e' =>
    cases h
    exact .inl rfl
  | ok a => exact .inr ⟨a, rfl, h⟩

/-- What a step takes from the front of the input is an `X` and spells its
result. -/
def Sound {α : Type} (step : Parse α) (X : List Lexeme → α → Prop) : Prop :=
  ∀ ts a rest, step ts = .ok (a, rest) → ∃ us, ts = us ++ rest ∧ X (us.map (·.val)) a

/-- An `X` up to and with a closing parenthesis. -/
def Closed {α : Type} (X : List Lexeme → α → Prop) (ts : List Lexeme) (a : α) : Prop :=
  ∃ us, ts = us ++ [.symbol .rightParen] ∧ X us a

namespace Parser

variable (p : Parser) {step : Parse Expr} {k : Nat} {x y : Phrase} {ops : List Operator}

/-- A tree that is let through is not changed. -/
theorem eq_of_bounded {place : Nat} {e e' : Expr} (h : p.bounded place e = .ok e') : e' = e := by
  unfold bounded at h
  split at h
  · exact (Except.ok.inj h).symm
  · cases h

/-- A symbol that was asked for stood in front. -/
theorem eq_cons_of_expect {s : Symbol} {w : Expected} {ts rest : Input}
    (h : p.expect s w ts = .ok rest) : ∃ q, ts = ⟨.symbol s, q⟩ :: rest := by
  unfold expect at h
  split at h
  · cases h
  next t ts =>
    split at h
    next ht =>
      obtain rfl := Except.ok.inj h
      exact ⟨t.offset, by rw [← ht]⟩
    next => cases h

/-! ## Chains -/

/-- What extends a chain derives, if the operands do. -/
theorem sound_extend (hstep : Sound step (Derives y))
    (hops : ∀ op : Operator, op.rank = k → op ∈ ops) (n : Nat) (l : Expr) :
    Sound (p.extend k step n l) (DerivesChain ops y l) := by
  induction n generalizing l with
  | zero =>
    intro ts e rest h
    obtain ⟨rfl, rfl⟩ := Prod.mk.inj (Except.ok.inj h)
    exact ⟨[], rfl, .done⟩
  | succ n ih =>
    intro ts e rest h
    rw [extend] at h
    split at h
    next =>
      obtain ⟨rfl, rfl⟩ := Prod.mk.inj (Except.ok.inj h)
      exact ⟨[], rfl, .done⟩
    next op place ts₀ ho =>
      obtain ⟨rfl, hk⟩ := operatorAt_eq_some ho
      obtain ⟨⟨r, ts₁⟩, hr, h₁⟩ := bind_eq_ok h
      obtain ⟨e', he', h₂⟩ := bind_eq_ok h₁
      obtain rfl := p.eq_of_bounded he'
      -- the lexemes of the round: the operator, those of its operand, those of the rounds behind it
      obtain ⟨us, rfl, hus⟩ := hstep _ _ _ hr
      obtain ⟨vs, rfl, hvs⟩ := ih _ _ _ _ h₂
      refine ⟨⟨.symbol op.symbol, place⟩ :: (us ++ vs), by simp, ?_⟩
      rw [List.map_cons, List.map_append]
      exact .more (hops op hk) hus hvs

/-- What a rank reads derives: by induction on the rank. -/
theorem sound_ranked (hstep : Sound step (Derives .unary)) (hx : x.rank = k)
    (hx' : x ≠ .primary) : Sound (p.ranked step k) (Derives x) := by
  induction k generalizing x with
  | zero =>
    have : x = .unary := by cases x <;> simp [Phrase.rank] at hx hx' ⊢
    rw [this]
    exact hstep
  | succ k ih =>
    obtain ⟨ops, y, hc⟩ := x.exists_chain? (by omega)
    obtain ⟨hrank, hy, hops⟩ := Phrase.rank_of_chain? hc
    have hsound : Sound (p.ranked step k) (Derives y) := ih (by omega) hy
    intro ts e rest h
    -- a left operand, read one rank below, and what the operators of this rank add to it
    obtain ⟨⟨l, ts₁⟩, hl, h₁⟩ := bind_eq_ok h
    obtain ⟨us, rfl, hus⟩ := hsound _ _ _ hl
    obtain ⟨vs, rfl, hvs⟩ :=
      p.sound_extend hsound (fun op hop => (hops op).2 (hop.trans hx.symm)) p.size l _ _ _ h₁
    refine ⟨us ++ vs, by simp, ?_⟩
    rw [List.map_append]
    exact .chain hc hus hvs

/-- What is read as a whole expression derives, if the operands do. -/
theorem sound_expression (hstep : Sound step (Derives .unary)) :
    Sound (p.expression step) (Derives .or) :=
  p.sound_ranked hstep rfl (by simp)

/-! ## Arguments -/

/-- The arguments behind the first derive, with the parenthesis that closes them. -/
theorem sound_moreArguments (hstep : Sound step (Derives .or)) (n : Nat) :
    Sound (p.moreArguments step n) (Closed DerivesMore) := by
  -- both where no comma follows and where the count is used up, only the parenthesis is left
  have hclose : ∀ ts es rest, (do
      let ts ← p.expect .rightParen .commaOrClosingParen ts
      .ok ([], ts)) = Except.ok (es, rest) →
      ∃ us, ts = us ++ rest ∧ Closed DerivesMore (us.map (·.val)) es := by
    intro ts es rest h
    obtain ⟨ts₁, hp, h₁⟩ := bind_eq_ok h
    obtain ⟨rfl, rfl⟩ := Prod.mk.inj (Except.ok.inj h₁)
    obtain ⟨q, rfl⟩ := p.eq_cons_of_expect hp
    exact ⟨[⟨.symbol .rightParen, q⟩], rfl, [], rfl, .done⟩
  induction n with
  | zero => exact fun ts es rest h => hclose ts es rest h
  | succ n ih =>
    intro ts es rest h
    unfold moreArguments at h
    split at h
    next n' q ts₀ hn =>
      obtain rfl := Nat.succ.inj hn
      obtain ⟨⟨e, ts₁⟩, he, h₁⟩ := bind_eq_ok h
      obtain ⟨⟨es', ts₂⟩, hes, h₂⟩ := bind_eq_ok h₁
      obtain ⟨rfl, rfl⟩ := Prod.mk.inj (Except.ok.inj h₂)
      obtain ⟨us, rfl, hus⟩ := hstep _ _ _ he
      obtain ⟨vs, rfl, ws, hws, hmore⟩ := ih _ _ _ hes
      refine ⟨⟨.symbol .comma, q⟩ :: (us ++ vs), by simp,
        .symbol .comma :: (us.map (·.val) ++ ws), by simp [hws], .more hus hmore⟩
    next => exact hclose _ _ _ h

/-- And so do all arguments. -/
theorem sound_arguments (hstep : Sound step (Derives .or)) :
    Sound (p.arguments step) (Closed DerivesArguments) := by
  intro ts es rest h
  unfold arguments at h
  split at h
  next q ts₀ =>
    obtain ⟨rfl, rfl⟩ := Prod.mk.inj (Except.ok.inj h)
    exact ⟨[⟨.symbol .rightParen, q⟩], rfl, [], rfl, .none⟩
  next =>
    obtain ⟨⟨e, ts₁⟩, he, h₁⟩ := bind_eq_ok h
    obtain ⟨⟨es', ts₂⟩, hes, h₂⟩ := bind_eq_ok h₁
    obtain ⟨rfl, rfl⟩ := Prod.mk.inj (Except.ok.inj h₂)
    obtain ⟨us, rfl, hus⟩ := hstep _ _ _ he
    obtain ⟨vs, rfl, ws, hws, hmore⟩ := p.sound_moreArguments hstep _ _ _ _ hes
    exact ⟨us ++ vs, by simp, us.map (·.val) ++ ws, by simp [hws], .some hus hmore⟩

/-! ## Operands -/

/-- A step that goes one level down is the step of that level. -/
theorem eq_some_of_nested {α : Type} {inner : Option (Parse α)} {ts : Input} {a : α × Input}
    (h : p.nested inner ts = .ok a) : ∃ step, inner = some step ∧ step ts = .ok a := by
  unfold nested at h
  split at h
  next step => exact ⟨step, rfl, h⟩
  next => cases h

variable {inner : Option (Parse Expr)}

/-- What is read behind an operator derives together with it. -/
theorem sound_prefixed (hinner : ∀ step, inner = some step → Sound step (Derives .unary))
    (op : UnaryOp) (place : Nat) {ts rest : Input} {e : Expr}
    (h : p.prefixed inner op place ts = .ok (e, rest)) :
    ∃ us, ts = us ++ rest ∧ Derives .unary (.symbol op.symbol :: us.map (·.val)) e := by
  obtain ⟨⟨x, ts₁⟩, hx, h₁⟩ := bind_eq_ok h
  obtain ⟨e', he', h₂⟩ := bind_eq_ok h₁
  obtain ⟨rfl, rfl⟩ := Prod.mk.inj (Except.ok.inj h₂)
  obtain rfl := p.eq_of_bounded he'
  obtain ⟨step, rfl, hstep⟩ := p.eq_some_of_nested hx
  obtain ⟨us, rfl, hus⟩ := hinner step rfl _ _ _ hstep
  exact ⟨us, rfl, .unary hus⟩

/-- What is read behind an opening parenthesis derives, with the one that closes it. -/
theorem sound_parenthesised (hinner : ∀ step, inner = some step → Sound step (Derives .unary)) :
    Sound (p.parenthesised inner) (Closed (Derives .or)) := by
  intro ts e rest h
  obtain ⟨⟨x, ts₁⟩, hx, h₁⟩ := bind_eq_ok h
  obtain ⟨ts₂, hp, h₂⟩ := bind_eq_ok h₁
  obtain ⟨rfl, rfl⟩ := Prod.mk.inj (Except.ok.inj h₂)
  obtain ⟨q, rfl⟩ := p.eq_cons_of_expect hp
  obtain ⟨f, hf, hstep⟩ := p.eq_some_of_nested hx
  obtain ⟨step, rfl, rfl⟩ := Option.map_eq_some_iff.1 hf
  obtain ⟨us, rfl, hus⟩ := p.sound_expression (hinner step rfl) _ _ _ hstep
  exact ⟨us ++ [⟨.symbol .rightParen, q⟩], by simp, us.map (·.val), by simp, hus⟩

/-- What is read behind a name derives together with the name. -/
theorem sound_called (hinner : ∀ step, inner = some step → Sound step (Derives .unary))
    (name : String) (place : Nat) {ts rest : Input} {e : Expr}
    (h : p.called inner name place ts = .ok (e, rest)) :
    ∃ us, ts = us ++ rest ∧
      Derives .primary (.identifier name :: .symbol .leftParen :: us.map (·.val)) e := by
  obtain ⟨⟨es, ts₁⟩, hes, h₁⟩ := bind_eq_ok h
  obtain ⟨e', he', h₂⟩ := bind_eq_ok h₁
  obtain ⟨rfl, rfl⟩ := Prod.mk.inj (Except.ok.inj h₂)
  obtain rfl := p.eq_of_bounded he'
  obtain ⟨f, hf, hstep⟩ := p.eq_some_of_nested hes
  obtain ⟨step, rfl, rfl⟩ := Option.map_eq_some_iff.1 hf
  obtain ⟨us, rfl, ws, hws, hargs⟩ :=
    p.sound_arguments (p.sound_expression (hinner step rfl)) _ _ _ hstep
  exact ⟨us, rfl, hws ▸ .call hargs⟩

/-- **What is read as an operand derives**, if what is nested in it does. -/
theorem sound_operand (hinner : ∀ step, inner = some step → Sound step (Derives .unary)) :
    Sound (p.operand inner) (Derives .unary) := by
  intro ts e rest h
  unfold operand at h
  split at h
  next => cases h
  next s q ts₀ =>
    split at h
    next op hop =>
      obtain ⟨us, rfl, hus⟩ := p.sound_prefixed hinner op q h
      obtain rfl := UnaryOp.ofSymbol?_eq_some_iff.1 hop
      exact ⟨⟨.symbol op.symbol, q⟩ :: us, rfl, hus⟩
    next =>
      split at h
      next hs =>
        obtain ⟨us, rfl, ws, hws, hus⟩ := p.sound_parenthesised hinner _ _ _ h
        refine ⟨⟨.symbol s, q⟩ :: us, rfl, ?_⟩
        rw [List.map_cons, hws, hs]
        exact .primary (.parentheses hus)
      next => cases h
  next name q q' ts₀ =>
    obtain ⟨us, rfl, hus⟩ := p.sound_called hinner name q h
    exact ⟨⟨.identifier name, q⟩ :: ⟨.symbol .leftParen, q'⟩ :: us, rfl, .primary hus⟩
  next name q ts₀ _ =>
    obtain ⟨rfl, rfl⟩ := Prod.mk.inj (Except.ok.inj h)
    exact ⟨[⟨.identifier name, q⟩], rfl, .primary .param⟩
  next text q ts₀ =>
    obtain ⟨rfl, rfl⟩ := Prod.mk.inj (Except.ok.inj h)
    exact ⟨[⟨.boolean text, q⟩], rfl, .primary .boolean⟩
  next text q ts₀ =>
    split at h
    next n hn =>
      obtain ⟨rfl, rfl⟩ := Prod.mk.inj (Except.ok.inj h)
      exact ⟨[⟨.integer text, q⟩], rfl, .primary (.integer hn)⟩
    next => cases h
  next text q ts₀ =>
    obtain ⟨rfl, rfl⟩ := Prod.mk.inj (Except.ok.inj h)
    exact ⟨[⟨.string text, q⟩], rfl, .primary .string⟩

/-- **An operand that is read is one**, whatever levels of nesting are left. -/
theorem sound_unary (n : Nat) : Sound (p.unary n) (Derives .unary) := by
  induction n with
  | zero => exact p.sound_operand fun step h => by cases h
  | succ n ih => exact p.sound_operand fun step h => Option.some.inj h ▸ ih

/-- **An expression that is read derives** from the whole input. -/
theorem derives_of_whole {ts : Input} {e : Expr} (h : p.whole ts = .ok e) :
    Derives .or (ts.map (·.val)) e := by
  obtain ⟨⟨e', rest⟩, he, h₁⟩ := bind_eq_ok h
  obtain ⟨us, rfl, hus⟩ := p.sound_expression (p.sound_unary p.limit) _ _ _ he
  cases rest with
  | nil =>
    obtain rfl := Except.ok.inj h₁
    rwa [List.append_nil]
  | cons t ts => cases h₁

end Parser
end Enablement
