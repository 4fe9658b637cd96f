import Enablement.Expr.Render
import Enablement.Proofs.Text.Decimal
import Enablement.Proofs.Token.Spelling

/-!
# Expressions — what the written form spells

An expression is written with parentheses around every operator, and with
blanks or commas wherever two lexemes could run together. So the written form
spells the lexemes that were meant, as long as its names are names and its
texts hold no quote (`Expr.BuiltFrom.spells_render`).
-/

namespace Enablement

/-! ## The lexemes of an expression -/

namespace Value

/-- The lexemes that a value is written with. -/
def lexemes : Value → List Lexeme
  | .boolean b => [.boolean (boolWord b)]
  | .integer n =>
    if n.toInt = -2147483648 then
      [.symbol .leftParen, .symbol .minus, .integer (Text.decimal 2147483647), .symbol .minus,
        .integer (Text.decimal 1), .symbol .rightParen]
    else if n.toInt < 0 then
      [.symbol .leftParen, .symbol .minus, .integer (Text.decimal n.toInt.natAbs),
        .symbol .rightParen]
    else [.integer (Text.decimal n.toInt.natAbs)]
  | .string s => [.string s]
  | .undefined name => [.identifier name]

/-- A value that comes as one literal. -/
def IsLiteral : Value → Prop
  | .boolean _ => True
  | .integer n => 0 ≤ n.toInt
  | .string s => '"' ∉ s.toList
  | .undefined _ => False

/-- A value whose written form can be read. -/
def IsLegible : Value → Prop
  | .boolean _ | .integer _ => True
  | .string s => '"' ∉ s.toList
  | .undefined name => IsName name

/-- A literal that stands in a source can be written. -/
theorem IsLiteral.isLegible {v : Value} (h : v.IsLiteral) : v.IsLegible := by
  cases v with
  | boolean b => trivial
  | integer n => trivial
  | string s => exact h
  | undefined name => exact h.elim

end Value

namespace Expr

mutual

/-- The lexemes that an expression is written with. -/
def lexemes : Expr → List Lexeme
  | .const v => v.lexemes
  | .param name => [.identifier name]
  | .unary op x =>
    .symbol .leftParen :: .symbol op.symbol :: (lexemes x ++ [.symbol .rightParen])
  | .binary op l r =>
    .symbol .leftParen ::
      (lexemes l ++ .symbol op.symbol :: (lexemes r ++ [.symbol .rightParen]))
  | .logical op l r =>
    .symbol .leftParen ::
      (lexemes l ++ .symbol op.symbol :: (lexemes r ++ [.symbol .rightParen]))
  | .call name args =>
    .identifier name :: .symbol .leftParen :: (lexemesAll args ++ [.symbol .rightParen])

/-- The lexemes of the arguments of a call. -/
def lexemesAll : List Expr → List Lexeme
  | [] => []
  | e :: es => lexemes e ++ lexemesMore es

/-- The lexemes of the arguments after the first, each behind a comma. -/
def lexemesMore : List Expr → List Lexeme
  | [] => []
  | e :: es => .symbol .comma :: (lexemes e ++ lexemesMore es)

end

/-- The constants of an expression are `P`, and its names, those of variables
and those of functions, are `Q`. -/
inductive BuiltFrom (P : Value → Prop) (Q : String → Prop) : Expr → Prop
  | const {v : Value} : P v → BuiltFrom P Q (.const v)
  | param {name : String} : Q name → BuiltFrom P Q (.param name)
  | unary {op : UnaryOp} {x : Expr} : BuiltFrom P Q x → BuiltFrom P Q (.unary op x)
  | binary {op : BinaryOp} {l r : Expr} :
      BuiltFrom P Q l → BuiltFrom P Q r → BuiltFrom P Q (.binary op l r)
  | logical {op : LogicalOp} {l r : Expr} :
      BuiltFrom P Q l → BuiltFrom P Q r → BuiltFrom P Q (.logical op l r)
  | call {name : String} {args : List Expr} :
      Q name → (∀ a ∈ args, BuiltFrom P Q a) → BuiltFrom P Q (.call name args)

/-- A tree built from some leaves is built from more. -/
theorem BuiltFrom.mono {P P' : Value → Prop} {Q : String → Prop} (hP : ∀ v, P v → P' v)
    {e : Expr} (h : e.BuiltFrom P Q) : e.BuiltFrom P' Q := by
  induction h with
  | const h => exact .const (hP _ h)
  | param h => exact .param h
  | unary _ ih => exact .unary ih
  | binary _ _ ihl ihr => exact .binary ihl ihr
  | logical _ _ ihl ihr => exact .logical ihl ihr
  | call h _ ih => exact .call h ih

/-- Every expression is built from what it is built from. -/
theorem builtFrom_any (e : Expr) : e.BuiltFrom (fun _ => True) (fun _ => True) := by
  induction e using Expr.induct with
  | const v => exact .const trivial
  | param name => exact .param trivial
  | unary op x ih => exact .unary ih
  | binary op l r ihl ihr => exact .binary ihl ihr
  | logical op l r ihl ihr => exact .logical ihl ihr
  | call name args ih => exact .call trivial ih

/-- An operator over trees that are built so is built so. -/
theorem BuiltFrom.apply {P : Value → Prop} {Q : String → Prop} (op : Operator) {l r : Expr}
    (hl : l.BuiltFrom P Q) (hr : r.BuiltFrom P Q) : (op.apply l r).BuiltFrom P Q := by
  cases op with
  | binary op => exact .binary hl hr
  | logical op => exact .logical hl hr

/-- An expression that a source spells in so many words: its constants are
literals, and its names are names. -/
def IsPrintable (e : Expr) : Prop := e.BuiltFrom Value.IsLiteral IsName

end Expr

/-! ## What may follow -/

/-- What is left of a source starts with a character that ends every lexeme. -/
def Separated (rest : List Char) : Prop :=
  ∀ c ∈ rest.head?, c = ' ' ∨ c = ',' ∨ c = ')'

/-- At the end of the text any lexeme ends. -/
theorem separated_nil : Separated [] := by simp [Separated]

/-- Any lexeme ends before a separator. -/
theorem Separated.endsBefore {rest : List Char} (h : Separated rest) (l : Lexeme) :
    l.EndsBefore rest := by
  intro c hc
  rcases h c hc with rfl | rfl | rfl
  all_goals
    cases l with
    | symbol s => cases s <;> rfl
    | _ => rfl

namespace Spells

variable {rest : List Char} {ls : List Lexeme}

/-- A blank in front changes nothing. -/
theorem blank (h : Spells rest ls) : Spells (' ' :: rest) ls := by
  have hblank : isBlank ' ' = true := by decide
  cases h with
  | blanks hbs => exact .blanks (List.forall_mem_cons.2 ⟨hblank, hbs⟩)
  | lexeme hbs hl hrest h => exact .lexeme (List.forall_mem_cons.2 ⟨hblank, hbs⟩) hl hrest h

/-- A lexeme where no blanks are before it. -/
theorem cons {l : Lexeme} (hl : l.WellSpelled) (hrest : l.EndsBefore rest) (h : Spells rest ls) :
    Spells (l.spelling.toList ++ rest) (l :: ls) :=
  @Spells.lexeme [] rest l ls (by simp) hl hrest h

/-- A symbol in front, if what follows does not make it another. -/
theorem symbol {s : Symbol} (hrest : (Lexeme.symbol s).EndsBefore rest) (h : Spells rest ls) :
    Spells (s.chars ++ rest) (.symbol s :: ls) := by
  have hs : (Lexeme.symbol s).spelling.toList = s.chars := String.toList_ofList
  rw [← hs]
  exact cons trivial hrest h

/-- An opening parenthesis in front, whatever follows. -/
theorem leftParen (h : Spells rest ls) : Spells ('(' :: rest) (.symbol .leftParen :: ls) :=
  symbol (s := .leftParen) (fun _ _ => rfl) h

/-- And so a closing one. -/
theorem rightParen (h : Spells rest ls) : Spells (')' :: rest) (.symbol .rightParen :: ls) :=
  symbol (s := .rightParen) (fun _ _ => rfl) h

end Spells

/-- The text spells the lexemes wherever it is followed by a separator. -/
def Writes (s : String) (ls : List Lexeme) : Prop :=
  ∀ rest ms, Separated rest → Spells rest ms → Spells (s.toList ++ rest) (ls ++ ms)

/-- A lexeme is written as it is spelled. -/
theorem writes_lexeme {l : Lexeme} (hl : l.WellSpelled) : Writes l.spelling [l] :=
  fun _ _ hrest h => .cons hl (hrest.endsBefore l) h

/-! ## Values -/

namespace Value

/-- The word for a truth value is spelled well. -/
theorem wellSpelled_boolWord (b : Bool) : (Lexeme.boolean (boolWord b)).WellSpelled := by
  cases b
  · exact ⟨⟨'f', ['a', 'l', 's', 'e'], rfl, rfl, List.all_eq_true.1 rfl⟩, .inr rfl⟩
  · exact ⟨⟨'t', ['r', 'u', 'e'], rfl, rfl, List.all_eq_true.1 rfl⟩, .inl rfl⟩

/-- And so are the digits of a number that fits. -/
theorem wellSpelled_decimal {n : Nat} (h : n ≤ 2147483647) :
    (Lexeme.integer (Text.decimal n)).WellSpelled := by
  refine ⟨Text.toList_decimal_ne_nil, Text.isDigit_of_mem_decimal, ?_⟩
  have hn : (Int32.ofInt n).toInt = n := Int32.toInt_ofInt_of_le (by omega) (by omega)
  rw [Text.int32OfText?_decimal hn]
  rfl

/-- So such a number is written as its digits. -/
theorem writes_decimal {n : Nat} (h : n ≤ 2147483647) :
    Writes (Text.decimal n) [.integer (Text.decimal n)] :=
  writes_lexeme (l := .integer (Text.decimal n)) (wellSpelled_decimal h)

/-- A minus and a number, between parentheses. -/
theorem writes_negative {n : Nat} (h : n ≤ 2147483647) :
    Writes ("(-" ++ Text.decimal n ++ ")")
      [.symbol .leftParen, .symbol .minus, .integer (Text.decimal n), .symbol .rightParen] := by
  intro rest ms _ hms
  have hclose := Spells.rightParen hms
  have hn := writes_decimal h _ _ (by simp [Separated]) hclose
  have hminus := Spells.symbol (s := .minus) (fun _ _ => rfl) hn
  simpa [Symbol.chars, Lexeme.spelling] using hminus.leftParen

/-- The least integer is written as a difference. -/
theorem writes_least :
    Writes "(-2147483647 - 1)"
      [.symbol .leftParen, .symbol .minus, .integer (Text.decimal 2147483647), .symbol .minus,
        .integer (Text.decimal 1), .symbol .rightParen] := by
  intro rest ms _ hms
  have hclose := Spells.rightParen hms
  have hone := writes_decimal (n := 1) (by decide) _ _ (by simp [Separated]) hclose
  have hsubtract := (Spells.symbol (s := .minus) (fun _ _ => rfl) hone.blank).blank
  have hmost := writes_decimal (n := 2147483647) (by decide) _ _ (by simp [Separated]) hsubtract
  have hminus := Spells.symbol (s := .minus) (fun _ _ => rfl) hmost
  exact hminus.leftParen

/-- **A value is written with its lexemes.** -/
theorem writes_render {v : Value} (h : v.IsLegible) : Writes v.render v.lexemes := by
  cases v with
  | boolean b => exact writes_lexeme (wellSpelled_boolWord b)
  | integer n =>
    have hlow := n.le_toInt
    have hhigh := n.toInt_lt
    rw [render, renderInteger, lexemes]
    by_cases hleast : n.toInt = -2147483648
    · rw [if_pos hleast, if_pos hleast]
      exact writes_least
    rw [if_neg hleast, if_neg hleast]
    by_cases hneg : n.toInt < 0
    · rw [if_pos hneg, if_pos hneg]
      exact writes_negative (by omega)
    · rw [if_neg hneg, if_neg hneg]
      exact writes_decimal (by omega)
  | string s => exact writes_lexeme (l := .string s) h
  | undefined name => exact writes_lexeme (l := .identifier name) h

end Value

/-! ## Expressions -/

/-- A name does not start with an equals sign. -/
theorem IsName.exists_cons {name : String} (h : IsName name) :
    ∃ c cs, name.toList = c :: cs ∧ c ≠ '=' := by
  obtain ⟨⟨c, cs, hcs, hc, -⟩, -⟩ := h
  refine ⟨c, cs, hcs, ?_⟩
  rintro rfl
  exact absurd hc (by decide)

/-- Nor does a literal. -/
theorem Value.IsLegible.exists_cons {v : Value} (h : v.IsLegible) :
    ∃ c cs, v.render.toList = c :: cs ∧ c ≠ '=' := by
  cases v with
  | boolean b => cases b <;> exact ⟨_, _, rfl, by decide⟩
  | integer n =>
    rw [render, renderInteger]
    split
    · exact ⟨_, _, rfl, by decide⟩
    split
    · simp
    · obtain ⟨c, cs, hcs⟩ := List.exists_cons_of_ne_nil
        (Text.toList_decimal_ne_nil (n := n.toInt.natAbs))
      refine ⟨c, cs, hcs, ?_⟩
      rintro rfl
      exact absurd (Text.isDigit_of_mem_decimal '=' (hcs ▸ List.mem_cons_self)) (by decide)
  | string s => simp [render]
  | undefined name => exact IsName.exists_cons h

namespace Expr

variable {x l r : Expr} {es : List Expr} {name : String}

/-- No expression starts with `=`, so one may follow a `!` directly. -/
theorem BuiltFrom.exists_cons {e : Expr} (h : e.BuiltFrom Value.IsLegible IsName) :
    ∃ c cs, e.render.toList = c :: cs ∧ c ≠ '=' := by
  cases h with
  | const hv => exact hv.exists_cons
  | param hname => exact hname.exists_cons
  | unary _ => simp [render]
  | binary _ _ => simp [render]
  | logical _ _ => simp [render]
  | @call name args hname _ =>
    obtain ⟨c, cs, hcs, hc⟩ := hname.exists_cons
    exact ⟨c, cs ++ '(' :: ((renderAll args).toList ++ [')']), by simp [render, hcs], hc⟩

/-- An operator before its operand is written in parentheses. -/
theorem writes_unary (op : UnaryOp) (hx : x.BuiltFrom Value.IsLegible IsName)
    (h : Writes x.render x.lexemes) : Writes (unary op x).render (unary op x).lexemes := by
  intro rest ms _ hms
  have hoperand := h _ _ (by simp [Separated]) hms.rightParen
  obtain ⟨c, cs, hcs, hc⟩ := hx.exists_cons
  -- `!` alone goes on with `=`, and no operand starts with that
  have hends : (Lexeme.symbol op.symbol).EndsBefore (x.render.toList ++ ')' :: rest) := by
    rw [hcs]
    intro d hd
    obtain rfl := Option.some.inj hd
    cases op
    · exact beq_eq_false_iff_ne.2 hc
    all_goals rfl
  simpa [render, lexemes, Symbol.spelling] using (Spells.symbol hends hoperand).leftParen

/-- An operator between its operands is written between them, in parentheses. -/
theorem writes_apply (op : Operator) (hl : Writes l.render l.lexemes)
    (hr : Writes r.render r.lexemes) :
    Writes (op.apply l r).render (op.apply l r).lexemes := by
  intro rest ms _ hms
  have hright := hr _ _ (by simp [Separated]) hms.rightParen
  have hends : (Lexeme.symbol op.symbol).EndsBefore (' ' :: (r.render.toList ++ ')' :: rest)) :=
    Separated.endsBefore (by simp [Separated]) _
  have hleft := hl _ _ (by simp [Separated]) (Spells.symbol hends hright.blank).blank
  cases op <;>
    simpa [Operator.apply, Operator.symbol, render, lexemes, Symbol.spelling] using hleft.leftParen

/-- What follows an argument is the comma of the next one, or what follows them
all. -/
theorem separated_more {rest : List Char} (h : Separated rest) :
    Separated ((renderMore es).toList ++ rest) := by
  cases es with
  | nil => exact h
  | cons _ _ => simp [renderMore, Separated]

/-- The arguments behind the first are written with a comma before each. -/
theorem writes_more (h : ∀ a ∈ es, Writes a.render a.lexemes) :
    Writes (renderMore es) (lexemesMore es) := by
  induction es with
  | nil => exact fun _ _ _ hms => hms
  | cons e es ih =>
    obtain ⟨he, hes⟩ := List.forall_mem_cons.1 h
    intro rest ms hrest hms
    have hmore := ih hes _ _ hrest hms
    have hfirst := he _ _ (separated_more hrest) hmore
    have hcomma := Spells.symbol (s := .comma) (fun _ _ => rfl) hfirst.blank
    simpa [renderMore, lexemesMore, Symbol.chars] using hcomma

/-- All arguments are written with commas between them. -/
theorem writes_all (h : ∀ a ∈ es, Writes a.render a.lexemes) :
    Writes (renderAll es) (lexemesAll es) := by
  cases es with
  | nil => exact fun _ _ _ hms => hms
  | cons e es =>
    obtain ⟨he, hes⟩ := List.forall_mem_cons.1 h
    intro rest ms hrest hms
    have hmore := writes_more hes _ _ hrest hms
    simpa [renderAll, lexemesAll] using he _ _ (separated_more hrest) hmore

/-- A call is written as its name and its arguments in parentheses. -/
theorem writes_call (hname : IsName name) (h : ∀ a ∈ es, Writes a.render a.lexemes) :
    Writes (call name es).render (call name es).lexemes := by
  intro rest ms _ hms
  have hargs := writes_all h _ _ (by simp [Separated]) hms.rightParen
  have hends : (Lexeme.identifier name).EndsBefore
      ('(' :: ((renderAll es).toList ++ ')' :: rest)) := by
    intro d hd
    obtain rfl := Option.some.inj hd
    rfl
  have hcall : Spells (name.toList ++ '(' :: ((renderAll es).toList ++ ')' :: rest)) _ :=
    .cons (l := .identifier name) hname hends hargs.leftParen
  simpa [render, lexemes] using hcall

/-- **An expression is written with its lexemes**, and they cannot be taken
for others. -/
theorem BuiltFrom.writes_render {e : Expr} (h : e.BuiltFrom Value.IsLegible IsName) :
    Writes e.render e.lexemes := by
  induction h with
  | const hv => exact Value.writes_render hv
  | @param name hname => exact writes_lexeme (l := .identifier name) hname
  | unary hx ih => exact writes_unary _ hx ih
  | @binary op _ _ _ _ ihl ihr => exact writes_apply (.binary op) ihl ihr
  | @logical op _ _ _ _ ihl ihr => exact writes_apply (.logical op) ihl ihr
  | call hname _ ih => exact writes_call hname ih

/-- And so the written form alone spells them. -/
theorem BuiltFrom.spells_render {e : Expr} (h : e.BuiltFrom Value.IsLegible IsName) :
    Spells e.render.toList e.lexemes := by
  have := h.writes_render [] [] separated_nil (.blanks (by simp))
  rwa [List.append_nil, List.append_nil] at this

end Expr
end Enablement
