import Enablement.Proofs.Expr.Grammar

/-!
# Expressions — what may come next

Which lexeme may come next in an expression is decided by what stands before
it: by the lexeme directly before, and by the parentheses that are still open.
A `Point` keeps just that, and lexemes are read on from point to point
(`Point.read?`). What derives is read through, from where an operand has to
follow to where one has been read, and it closes what it opens
(`Derives.exists_read?`). So lexemes that are refused on the way begin no
expression (`not_viable_of_read?`).
-/

namespace Enablement

/-- Some expression begins with the lexemes. -/
def Viable (ts : List Lexeme) : Prop := ∃ us e, Derives .or (ts ++ us) e

/-! ## Points of an expression -/

/-- What the lexeme before a point asks for. -/
inductive Place
  /-- An operand has to follow. -/
  | operand
  /-- The first argument of a call has to follow, or the end of the call. -/
  | argument
  /-- A name was read, which may be that of a call. -/
  | name
  /-- Any other operand was read to its end. -/
  | operator
deriving DecidableEq, Repr

/-- An operand was read to its end. -/
def Place.Complete (x : Place) : Prop := x = .name ∨ x = .operator

/-- What an open parenthesis belongs to. -/
inductive Bracket
  /-- An expression in parentheses. -/
  | group
  /-- The arguments of a call. -/
  | call
deriving DecidableEq, Repr

/-- A point between two lexemes of an expression. -/
structure Point where
  /-- What the lexeme before it asks for. -/
  place : Place
  /-- The parentheses that are open there, the innermost first. -/
  opened : List Bracket
deriving DecidableEq, Repr

namespace Point

/-- The point after a lexeme that starts an operand. -/
def operand? (bs : List Bracket) : Lexeme → Option Point
  | .symbol .leftParen => some ⟨.operand, .group :: bs⟩
  | .symbol s => (UnaryOp.ofSymbol? s).map fun _ => ⟨.operand, bs⟩
  | .identifier _ => some ⟨.name, bs⟩
  | .integer text => (Text.int32OfText? text).map fun _ => ⟨.operator, bs⟩
  | .boolean _ | .string _ => some ⟨.operator, bs⟩

/-- The point after a lexeme that follows an operand. -/
def operator? : List Bracket → Lexeme → Option Point
  | _ :: bs, .symbol .rightParen => some ⟨.operator, bs⟩
  | .call :: bs, .symbol .comma => some ⟨.operand, .call :: bs⟩
  | bs, .symbol s => (Operator.ofSymbol? s).map fun _ => ⟨.operand, bs⟩
  | _, _ => none

/-- The point after the next lexeme, if that may come next. -/
def next? : Point → Lexeme → Option Point
  | ⟨.operand, bs⟩, t => operand? bs t
  | ⟨.argument, bs⟩, t => if t = .symbol .rightParen then operator? bs t else operand? bs t
  | ⟨.name, bs⟩, t =>
    if t = .symbol .leftParen then some ⟨.argument, .call :: bs⟩ else operator? bs t
  | ⟨.operator, bs⟩, t => operator? bs t

/-- The point after some lexemes, if each may come where it does. -/
def read? (x : Point) (ts : List Lexeme) : Option Point := ts.foldlM next? x

variable {x y : Point} {t : Lexeme} {ts us : List Lexeme} {bs : List Bracket} {place : Place}

/-- Nothing read changes nothing. -/
@[simp] theorem read?_nil : x.read? [] = some x := rfl

/-- Lexemes are read one by one. -/
@[simp] theorem read?_cons : x.read? (t :: ts) = (x.next? t).bind (·.read? ts) := rfl

/-- Two stretches of lexemes are read one after the other. -/
theorem read?_append : x.read? (ts ++ us) = (x.read? ts).bind (·.read? us) :=
  List.foldlM_append

/-- Lexemes that were read are read on from the point that they lead to. -/
theorem read?_append_of (h : x.read? ts = some y) : x.read? (ts ++ us) = y.read? us := by
  rw [read?_append, h]
  rfl

/-- The first argument is read as any operand is, unless the call ends. -/
theorem read?_argument (ht : t ≠ .symbol .rightParen) :
    read? ⟨.argument, bs⟩ (t :: ts) = read? ⟨.operand, bs⟩ (t :: ts) := by
  rw [read?_cons, read?_cons, next?, next?, if_neg ht]

/-! ## What may follow an operand -/

/-- Behind an operand only an operator, a comma or a parenthesis may come, or the
parenthesis of a call. -/
theorem next?_of_complete (h : place.Complete)
    (ht : place = .name → t ≠ .symbol .leftParen) :
    next? ⟨place, bs⟩ t = operator? bs t := by
  rcases h with rfl | rfl
  · rw [next?, if_neg (ht rfl)]
  · rw [next?]

/-- An operator may come behind an operand and asks for another. -/
theorem next?_operator (op : Operator) (h : place.Complete) :
    next? ⟨place, bs⟩ (.symbol op.symbol) = some ⟨.operand, bs⟩ := by
  have hop : Operator.ofSymbol? op.symbol = some op := Operator.ofSymbol?_eq_some_iff.2 rfl
  rw [next?_of_complete h (by cases op with | binary op | logical op => cases op <;> nofun)]
  cases op with | binary op | logical op => cases op <;> rcases bs with _ | ⟨_ | _, _⟩ <;> rfl

/-- A closing parenthesis closes the innermost one behind an operand. -/
theorem next?_rightParen (b : Bracket) (h : place.Complete) :
    next? ⟨place, b :: bs⟩ (.symbol .rightParen) = some ⟨.operator, bs⟩ := by
  rw [next?_of_complete h (by simp), operator?]

/-- A comma asks for the next argument. -/
theorem next?_comma (h : place.Complete) :
    next? ⟨place, .call :: bs⟩ (.symbol .comma) = some ⟨.operand, .call :: bs⟩ := by
  rw [next?_of_complete h (by simp), operator?]

/-- An operator before its operand leaves it to be read. -/
theorem next?_unaryOp (op : UnaryOp) :
    next? ⟨.operand, bs⟩ (.symbol op.symbol) = some ⟨.operand, bs⟩ := by
  cases op <;> rfl

/-- No other symbol but an opening parenthesis starts an operand. -/
theorem operand?_symbol {s : Symbol} (hs : s ≠ .leftParen) (hop : UnaryOp.ofSymbol? s = none) :
    operand? bs (.symbol s) = none := by
  unfold operand?
  split
  next h => exact absurd (Lexeme.symbol.inj h) hs
  next h =>
    rw [← Lexeme.symbol.inj h, hop]
    rfl
  all_goals simp at *

end Point

/-! ## What derives is read through -/

open Point

mutual

/-- **A phrase is read through**, and it closes the parentheses that it opens. -/
theorem Derives.exists_read? {x : Phrase} {ts : List Lexeme} {e : Expr} (bs : List Bracket) :
    Derives x ts e → ∃ place, Place.Complete place ∧ read? ⟨.operand, bs⟩ ts = some ⟨place, bs⟩
  | .chain _ h₁ h₂ => by
    obtain ⟨place, hplace, hl⟩ := h₁.exists_read? bs
    rw [read?_append_of hl]
    exact h₂.exists_read? bs hplace
  | @Derives.unary op _ _ h => by
    rw [read?_cons, next?_unaryOp, Option.bind_some]
    exact h.exists_read? bs
  | .primary h => h.exists_read? bs
  | .integer h => ⟨.operator, .inr rfl, by simp [next?, operand?, h]⟩
  | .boolean | .string => ⟨.operator, .inr rfl, rfl⟩
  | .param => ⟨.name, .inl rfl, rfl⟩
  | .call h => ⟨.operator, .inr rfl, h.read? bs⟩
  | .parentheses h => by
    obtain ⟨place, hplace, hx⟩ := h.exists_read? (.group :: bs)
    refine ⟨.operator, .inr rfl, ?_⟩
    rw [read?_cons, next?, operand?, Option.bind_some, read?_append_of hx, read?_cons,
      next?_rightParen _ hplace]
    rfl

/-- So is a chain read through, from behind one operand to behind another. -/
theorem DerivesChain.exists_read? {ops : List Operator} {y : Phrase} {l e : Expr}
    {us : List Lexeme} (bs : List Bracket) {place : Place} :
    DerivesChain ops y l us e → place.Complete →
    ∃ place', Place.Complete place' ∧ read? ⟨place, bs⟩ us = some ⟨place', bs⟩
  | .done, hplace => ⟨place, hplace, rfl⟩
  | .more _ h₁ h₂, hplace => by
    obtain ⟨place', hplace', hr⟩ := h₁.exists_read? bs
    rw [read?_cons, next?_operator _ hplace, Option.bind_some, read?_append_of hr]
    exact h₂.exists_read? bs hplace'

/-- The arguments are read up to the parenthesis that closes them. -/
theorem DerivesArguments.read? {us : List Lexeme} {es : List Expr} (bs : List Bracket) :
    DerivesArguments us es →
    Point.read? ⟨.argument, .call :: bs⟩ (us ++ [.symbol .rightParen]) = some ⟨.operator, bs⟩
  | .none => rfl
  | .some h₁ h₂ => by
    obtain ⟨place, hplace, hfirst⟩ := h₁.exists_read? (.call :: bs)
    obtain ⟨t, ts, rfl, ht⟩ := h₁.exists_cons
    rw [List.append_assoc, List.cons_append, read?_argument ht, ← List.cons_append,
      read?_append_of hfirst]
    exact h₂.read? bs hplace

/-- And so are the arguments behind the first, with the parenthesis that closes them. -/
theorem DerivesMore.read? {us : List Lexeme} {es : List Expr} (bs : List Bracket)
    {place : Place} :
    DerivesMore us es → place.Complete →
    Point.read? ⟨place, .call :: bs⟩ (us ++ [.symbol .rightParen]) = some ⟨.operator, bs⟩
  | .done, hplace => by
    rw [List.nil_append, read?_cons, next?_rightParen _ hplace]
    rfl
  | .more h₁ h₂, hplace => by
    obtain ⟨place', hplace', hnext⟩ := h₁.exists_read? (.call :: bs)
    rw [List.cons_append, List.append_assoc, read?_cons, next?_comma hplace, Option.bind_some,
      read?_append_of hnext]
    exact h₂.read? bs hplace'

end

/-- **What is refused begins no expression.** -/
theorem not_viable_of_read? {ts : List Lexeme} (h : read? ⟨.operand, []⟩ ts = none) :
    ¬ Viable ts := by
  rintro ⟨us, e, he⟩
  obtain ⟨place, -, hread⟩ := he.exists_read? []
  rw [read?_append, h] at hread
  cases hread

end Enablement
