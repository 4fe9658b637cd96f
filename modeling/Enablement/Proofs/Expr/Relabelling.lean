import Enablement.Expr.Parse
import Enablement.Proofs.Expr.Rebuilding

/-!
# Parsing — other texts and other places

A parser looks at the kinds of lexemes, at which of the two truth values a
word is, and at the number that digits spell. What a name or a text says, and
where a lexeme stands, it only hands on. So lexemes with other texts and in
other places are read as the same tree with these texts, or refused for the
same reason in the other place (`Relabelling.ofStream_stream`), as long as the
texts differ in no more than the case of letters.
-/

namespace Enablement

/-! ## Other texts -/

section

variable (f : String → String)

/-- The lexeme with its name or text replaced. Digits are kept. -/
def Lexeme.mapText : Lexeme → Lexeme
  | .symbol s => .symbol s
  | .identifier name => .identifier (f name)
  | .boolean text => .boolean (f text)
  | .integer text => .integer text
  | .string text => .string (f text)

/-- The value with its text, or the name that it marks, replaced. -/
def Value.mapText : Value → Value
  | .boolean b => .boolean b
  | .integer n => .integer n
  | .string text => .string (f text)
  | .undefined name => .undefined (f name)

namespace Expr

/-- The expression with its names and texts replaced. -/
def mapText (e : Expr) : Expr :=
  e.rebuild (fun v => .const (v.mapText f)) (fun name => .param (f name)) f

/-- In a call the texts of the name and of the arguments are replaced. -/
theorem mapText_call (name : String) (args : List Expr) :
    (call name args).mapText f = .call (f name) (args.map (mapText f)) :=
  rebuild_call ..

/-- The shape of a tree is that of its nodes. -/
@[simp] theorem depth_mapText (e : Expr) : (e.mapText f).depth = e.depth := by
  have hgrows := depth_le_depth_rebuild (fun v => const (v.mapText f)) (fun m => param (f m)) f e
  have hgrown : (e.mapText f).depth ≤ e.depth + 0 :=
    depth_rebuild_le (fun _ => Nat.le_refl 1) (fun _ => Nat.le_refl 1) e
  exact Nat.le_antisymm hgrown hgrows

end Expr

/-- The kind of a lexeme does not depend on its text. -/
@[simp] theorem Lexeme.kind_mapText (l : Lexeme) : (l.mapText f).kind = l.kind := by
  cases l <;> rfl

/-- A symbol stays a symbol, and nothing else becomes one. -/
@[simp] theorem Lexeme.mapText_eq_symbol_iff {l : Lexeme} {s : Symbol} :
    l.mapText f = .symbol s ↔ l = .symbol s := by
  cases l <;> simp [mapText]

/-- An operator stays the same over operands with other texts. -/
@[simp] theorem Operator.mapText_apply (op : Operator) (l r : Expr) :
    (op.apply l r).mapText f = op.apply (l.mapText f) (r.mapText f) :=
  Expr.rebuild_apply ..

end

/-! Nothing changes where every text is itself. -/

/-- To replace each text by itself changes no lexeme. -/
@[simp] theorem Lexeme.mapText_id (l : Lexeme) : l.mapText id = l := by cases l <;> rfl

/-- Nor any value. -/
@[simp] theorem Value.mapText_id (v : Value) : v.mapText id = v := by cases v <;> rfl

/-- Nor any expression. -/
@[simp] theorem Expr.mapText_id (e : Expr) : e.mapText id = e := by
  simp only [mapText, Value.mapText_id, id]
  exact rebuild_self e

/-! ## Other places -/

/-- The fault in another place. -/
def Fault.mapPlace (g : Nat → Nat) : Fault → Fault
  | .unexpectedCharacter c p => .unexpectedCharacter c (g p)
  | .unterminatedString p => .unterminatedString (g p)
  | .integerOverflow text p => .integerOverflow text (g p)
  | .unexpectedToken found w p => .unexpectedToken found w (g p)
  | .unexpectedEnd w p => .unexpectedEnd w (g p)
  | .nestingTooDeep limit p => .nestingTooDeep limit (g p)
  | .typeMismatch op expected got => .typeMismatch op expected got
  | .divisionByZero => .divisionByZero
  | .unknownFunction name => .unknownFunction name
  | .invalidEncoding unit => .invalidEncoding unit

/-- To leave each place as it is changes no fault. -/
@[simp] theorem Fault.mapPlace_id (f : Fault) : f.mapPlace id = f := by cases f <;> rfl

/-! ## Results -/

section

variable {α β γ δ : Type}

/-- The result with its value and its fault replaced. -/
def carry (f : α → β) (h : Fault → Fault) : Except Fault α → Except Fault β
  | .ok a => .ok (f a)
  | .error e => .error (h e)

/-- **Steps in a row are carried over one by one.** -/
theorem carry_bind {f : α → β} {f' : γ → δ} {h : Fault → Fault} {r : Except Fault α}
    {k : α → Except Fault γ} {k' : β → Except Fault δ} (hk : ∀ a, k' (f a) = carry f' h (k a)) :
    carry f h r >>= k' = carry f' h (r >>= k) := by
  cases r with
  | error e => rfl
  | ok a => exact hk a

end

/-- Other texts, of which each is the old one in another case, and other places. -/
structure Relabelling where
  /-- The text for a text. -/
  text : String → String
  /-- The place for a place. -/
  place : Nat → Nat
  /-- Only the case of letters changes. -/
  foldName_text : ∀ t, Text.foldName (text t) = Text.foldName t

namespace Relabelling

variable (ρ : Relabelling) {α β : Type}

/-- A lexeme with another text in another place. -/
def lexeme (t : Located Lexeme) : Located Lexeme := ⟨t.val.mapText ρ.text, ρ.place t.offset⟩

/-- Lexemes with other texts in other places. -/
def input (ts : Input) : Input := ts.map ρ.lexeme

/-- A stream of such lexemes. -/
def stream (s : Stream) : Stream := ⟨ρ.input s.lexemes, ρ.place s.stop⟩

/-- An expression with other texts. -/
abbrev expr : Expr → Expr := Expr.mapText ρ.text

/-- A fault in another place. -/
abbrev fault : Fault → Fault := Fault.mapPlace ρ.place

/-- The parser of an input that ends in another place. -/
def parser (p : Parser) : Parser := { p with stop := ρ.place p.stop }

/-- What a step makes of an input is carried over: its value by `f`. -/
def result (f : α → β) : Except Fault (α × Input) → Except Fault (β × Input) :=
  carry (fun a => (f a.1, ρ.input a.2)) ρ.fault

/-- **The second step does with other texts and places what the first one does.** -/
def Carries (f : α → β) (step : Parse α) (step' : Parse β) : Prop :=
  ∀ ts, step' (ρ.input ts) = ρ.result f (step ts)

/-- Two steps in a row are carried over if each is. -/
theorem result_bind {γ δ : Type} {f : α → β} {f' : γ → δ} {r : Except Fault (α × Input)}
    {g : α × Input → Except Fault (γ × Input)} {g' : β × Input → Except Fault (δ × Input)}
    (hg : ∀ a rest, g' (f a, ρ.input rest) = ρ.result f' (g (a, rest))) :
    ρ.result f r >>= g' = ρ.result f' (r >>= g) :=
  carry_bind fun a => hg a.1 a.2

/-- The input is relabelled lexeme by lexeme. -/
theorem input_cons (t : Located Lexeme) (ts : Input) :
    ρ.input (t :: ts) = ρ.lexeme t :: ρ.input ts := rfl

/-- A symbol of the input stays where it is, and nothing else becomes one. -/
theorem val_lexeme_eq_symbol_iff {t : Located Lexeme} {s : Symbol} :
    (ρ.lexeme t).val = .symbol s ↔ t.val = .symbol s := Lexeme.mapText_eq_symbol_iff ρ.text

variable (p : Parser) {step step' : Parse Expr} {k : Nat}

/-! ## What every step is made of -/

/-- What is left of the input starts at the relabelled offset. -/
theorem offset_carried (ts : Input) : (ρ.parser p).offset (ρ.input ts) = ρ.place (p.offset ts) := by
  cases ts <;> rfl

/-- The fault of a lexeme that is out of place is relabelled. -/
theorem unexpected_carried (w : Expected) (ts : Input) :
    (ρ.parser p).unexpected w (ρ.input ts) = ρ.fault (p.unexpected w ts) := by
  cases ts with
  | nil => rfl
  | cons t ts => simp [input_cons, Parser.unexpected, lexeme, Fault.mapPlace]

/-- A symbol that is asked for is found in the relabelled input just if it was there. -/
theorem expect_carried (s : Symbol) (w : Expected) (ts : Input) :
    (ρ.parser p).expect s w (ρ.input ts) = carry ρ.input ρ.fault (p.expect s w ts) := by
  cases ts with
  | nil => rfl
  | cons t ts =>
    have hrefused := ρ.unexpected_carried p w (t :: ts)
    rw [input_cons] at hrefused
    rw [input_cons, Parser.expect, Parser.expect, hrefused]
    by_cases ht : t.val = .symbol s
    · rw [if_pos ht, if_pos (ρ.val_lexeme_eq_symbol_iff.2 ht)]
      rfl
    · rw [if_neg ht, if_neg (mt ρ.val_lexeme_eq_symbol_iff.1 ht)]
      rfl

/-- A tree is as deep whatever its texts are. -/
theorem bounded_carried (q : Nat) (e : Expr) :
    (ρ.parser p).bounded (ρ.place q) (ρ.expr e) = carry ρ.expr ρ.fault (p.bounded q e) := by
  have hlimit : (ρ.parser p).limit = p.limit := rfl
  rw [Parser.bounded, Parser.bounded, Expr.depth_mapText, hlimit]
  split <;> rfl

/-- And so is an operator of a rank. -/
theorem operatorAt_input (ts : Input) :
    Parser.operatorAt k (ρ.input ts) =
      (Parser.operatorAt k ts).map fun o => (o.1, ρ.place o.2.1, ρ.input o.2.2) := by
  match ts with
  | [] => rfl
  | ⟨.symbol s, q⟩ :: ts =>
    simp only [input_cons, lexeme, Lexeme.mapText, Parser.operatorAt]
    cases Operator.ofSymbol? s with
    | none => rfl
    | some op => by_cases hop : op.rank = k <;> simp [hop]
  | ⟨.identifier _, _⟩ :: _ | ⟨.boolean _, _⟩ :: _ | ⟨.integer _, _⟩ :: _
  | ⟨.string _, _⟩ :: _ => rfl

/-- The input starts with the symbol if it does so with other texts in other
places. -/
theorem exists_symbol_input_iff (s : Symbol) (ts : Input) :
    (∃ q us, ρ.input ts = ⟨.symbol s, q⟩ :: us) ↔ ∃ q us, ts = ⟨.symbol s, q⟩ :: us := by
  constructor
  · rintro ⟨q, us, h⟩
    obtain ⟨t, ts, rfl, ht, rfl⟩ := List.map_eq_cons_iff.1 h
    have hval : t.val = .symbol s := ρ.val_lexeme_eq_symbol_iff.1 (by rw [ht])
    exact ⟨t.offset, ts, by rw [← hval]⟩
  · rintro ⟨q, us, rfl⟩
    exact ⟨ρ.place q, ρ.input us, rfl⟩

/-! ## Chains -/

/-- A chain is carried if its operands are. -/
theorem carries_extend (hstep : ρ.Carries ρ.expr step step') (n : Nat) (l : Expr) :
    ρ.Carries ρ.expr (p.extend k step n l) ((ρ.parser p).extend k step' n (ρ.expr l)) := by
  induction n generalizing l with
  | zero => exact fun ts => rfl
  | succ n ih =>
    -- each operator makes another left operand, so the induction is on all of them
    intro ts
    rw [Parser.extend, Parser.extend, operatorAt_input]
    cases Parser.operatorAt k ts with
    | none => rfl
    | some o =>
      obtain ⟨op, q, us⟩ := o
      simp only [Option.map_some, hstep us]
      refine ρ.result_bind fun r rest => ?_
      rw [← Operator.mapText_apply, bounded_carried]
      exact carry_bind fun e => ih e rest

/-- And so is each rank: by induction on the rank. -/
theorem carries_ranked (hstep : ρ.Carries ρ.expr step step') (k : Nat) :
    ρ.Carries ρ.expr (p.ranked step k) ((ρ.parser p).ranked step' k) := by
  induction k with
  | zero => exact hstep
  | succ k ih =>
    intro ts
    rw [Parser.ranked, Parser.ranked, Parser.chain, Parser.chain, ih ts]
    exact ρ.result_bind fun l rest => ρ.carries_extend p ih p.size l rest

/-- A whole expression is carried if its operands are. -/
theorem carries_expression (hstep : ρ.Carries ρ.expr step step') :
    ρ.Carries ρ.expr (p.expression step) ((ρ.parser p).expression step') :=
  ρ.carries_ranked p hstep Operator.topRank

/-! ## Arguments -/

/-- Nothing is left to read but a closing parenthesis. -/
theorem expect_carried_bind (w : Expected) (f : α → β) (a : α) (ts : Input) :
    ((ρ.parser p).expect .rightParen w (ρ.input ts) >>= fun ts => .ok (f a, ts)) =
      ρ.result f (p.expect .rightParen w ts >>= fun ts => .ok (a, ts)) := by
  rw [expect_carried]
  exact carry_bind fun rest => rfl

/-- The arguments behind the first are carried if each of them is. -/
theorem carries_moreArguments (hstep : ρ.Carries ρ.expr step step') (n : Nat) :
    ρ.Carries (List.map ρ.expr) (p.moreArguments step n)
      ((ρ.parser p).moreArguments step' n) := by
  induction n with
  | zero => exact ρ.expect_carried_bind p .commaOrClosingParen (List.map ρ.expr) []
  | succ n ih =>
    intro ts
    by_cases hcomma : ∃ q us, ts = ⟨.symbol .comma, q⟩ :: us
    · obtain ⟨q, us, rfl⟩ := hcomma
      simp only [input_cons, lexeme, Lexeme.mapText, Parser.moreArguments, hstep us]
      refine ρ.result_bind fun e rest => ?_
      rw [ih rest]
      exact ρ.result_bind fun es rest' => rfl
    · -- without a comma in the one input there is none in the other, and both are to close
      have hcomma' := mt (ρ.exists_symbol_input_iff .comma ts).1 hcomma
      rw [Parser.moreArguments, Parser.moreArguments]
      · exact ρ.expect_carried_bind p .commaOrClosingParen (List.map ρ.expr) [] ts
      · exact fun _ q us _ h => hcomma ⟨q, us, h⟩
      · exact fun _ q us _ h => hcomma' ⟨q, us, h⟩

/-- And so are all arguments. -/
theorem carries_arguments (hstep : ρ.Carries ρ.expr step step') :
    ρ.Carries (List.map ρ.expr) (p.arguments step) ((ρ.parser p).arguments step') := by
  intro ts
  by_cases hclose : ∃ q us, ts = ⟨.symbol .rightParen, q⟩ :: us
  · obtain ⟨q, us, rfl⟩ := hclose
    rfl
  · have hclose' := mt (ρ.exists_symbol_input_iff .rightParen ts).1 hclose
    rw [Parser.arguments, Parser.arguments, hstep ts]
    · refine ρ.result_bind fun e rest => ?_
      show ((ρ.parser p).moreArguments step' p.size (ρ.input rest) >>= _) = _
      rw [ρ.carries_moreArguments p hstep p.size rest]
      exact ρ.result_bind fun es rest' => rfl
    · exact fun q us h => hclose ⟨q, us, h⟩
    · exact fun q us h => hclose' ⟨q, us, h⟩

/-! ## Operands -/

variable {inner inner' : Option (Parse Expr)}

/-- Where one step goes a level down, the other does, and in the same way. -/
theorem carries_nested {f : α → β} {next : Option (Parse α)} {next' : Option (Parse β)}
    (h : Option.Rel (ρ.Carries f) next next') :
    ρ.Carries f (p.nested next) ((ρ.parser p).nested next') := by
  intro ts
  cases h with
  | some hstep => exact hstep ts
  | none =>
    rw [Parser.nested, Parser.nested, offset_carried]
    rfl

/-- An operator before its operand is carried if the operand is. -/
theorem carries_prefixed (h : Option.Rel (ρ.Carries ρ.expr) inner inner') (op : UnaryOp)
    (q : Nat) :
    ρ.Carries ρ.expr (p.prefixed inner op q) ((ρ.parser p).prefixed inner' op (ρ.place q)) := by
  intro ts
  rw [Parser.prefixed, Parser.prefixed, ρ.carries_nested p h ts]
  refine ρ.result_bind fun x rest => ?_
  show ((ρ.parser p).bounded (ρ.place q) (ρ.expr (.unary op x)) >>= _) = _
  rw [bounded_carried]
  exact carry_bind fun e => rfl

/-- An expression in parentheses is carried if what is inside is. -/
theorem carries_parenthesised (h : Option.Rel (ρ.Carries ρ.expr) inner inner') :
    ρ.Carries ρ.expr (p.parenthesised inner) ((ρ.parser p).parenthesised inner') := by
  have hexpression : Option.Rel (ρ.Carries ρ.expr) (inner.map p.expression)
      (inner'.map (ρ.parser p).expression) := by
    cases h with
    | some hstep => exact .some (ρ.carries_expression p hstep)
    | none => exact .none
  intro ts
  rw [Parser.parenthesised, Parser.parenthesised, ρ.carries_nested p hexpression ts]
  exact ρ.result_bind fun e rest => ρ.expect_carried_bind p .closingParen ρ.expr e rest

/-- A name is carried, and a call of it if its arguments are. -/
theorem carries_called (h : Option.Rel (ρ.Carries ρ.expr) inner inner') (name : String) (q : Nat) :
    ρ.Carries ρ.expr (p.called inner name q)
      ((ρ.parser p).called inner' (ρ.text name) (ρ.place q)) := by
  have harguments : Option.Rel (ρ.Carries (List.map ρ.expr))
      (inner.map fun step => p.arguments (p.expression step))
      (inner'.map fun step => (ρ.parser p).arguments ((ρ.parser p).expression step)) := by
    cases h with
    | some hstep => exact .some (ρ.carries_arguments p (ρ.carries_expression p hstep))
    | none => exact .none
  intro ts
  rw [Parser.called, Parser.called, ρ.carries_nested p harguments ts]
  refine ρ.result_bind fun args rest => ?_
  have hcall : ρ.expr (.call name args) = .call (ρ.text name) (args.map ρ.expr) :=
    Expr.mapText_call ..
  show ((ρ.parser p).bounded (ρ.place q) (.call (ρ.text name) (args.map ρ.expr)) >>= _) = _
  rw [← hcall, bounded_carried]
  exact carry_bind fun e => rfl

/-- A name is a call where a parenthesis follows it, whatever the name is. -/
theorem operand_identifier (h : Option.Rel (ρ.Carries ρ.expr) inner inner') (name : String)
    (q : Nat) (ts : Input) :
    (ρ.parser p).operand inner' (ρ.input (⟨.identifier name, q⟩ :: ts)) =
      ρ.result ρ.expr (p.operand inner (⟨.identifier name, q⟩ :: ts)) := by
  by_cases hopen : ∃ q us, ts = ⟨.symbol .leftParen, q⟩ :: us
  · obtain ⟨q', us, rfl⟩ := hopen
    exact ρ.carries_called p h name q us
  · have hopen' := mt (ρ.exists_symbol_input_iff .leftParen ts).1 hopen
    rw [input_cons, lexeme, Lexeme.mapText, Parser.operand, Parser.operand]
    · rfl
    · exact fun q us h => hopen ⟨q, us, h⟩
    · exact fun q us h => hopen' ⟨q, us, h⟩

/-- **An operand is carried** if those that are nested in it are. -/
theorem carries_operand (h : Option.Rel (ρ.Carries ρ.expr) inner inner') :
    ρ.Carries ρ.expr (p.operand inner) ((ρ.parser p).operand inner') := by
  intro ts
  match ts with
  | [] => rfl
  | ⟨.symbol s, q⟩ :: ts =>
    simp only [input_cons, lexeme, Lexeme.mapText, Parser.operand]
    cases UnaryOp.ofSymbol? s with
    | some op => exact ρ.carries_prefixed p h op q ts
    | none =>
      by_cases hopen : s = .leftParen
      · rw [if_pos hopen, if_pos hopen]
        exact ρ.carries_parenthesised p h ts
      · rw [if_neg hopen, if_neg hopen]
        rfl
  | ⟨.identifier name, q⟩ :: ts => exact ρ.operand_identifier p h name q ts
  | ⟨.boolean text, q⟩ :: ts =>
    -- which of the two words it is does not depend on their case
    have hsame : Text.sameName (ρ.text text) "true" = Text.sameName text "true" := by
      rw [Text.sameName, ρ.foldName_text, Text.sameName]
    simp only [input_cons, lexeme, Lexeme.mapText, Parser.operand, hsame]
    rfl
  | ⟨.integer text, q⟩ :: ts =>
    simp only [input_cons, lexeme, Lexeme.mapText, Parser.operand]
    cases Text.int32OfText? text <;> rfl
  | ⟨.string text, q⟩ :: ts => rfl

/-- So operands are carried at any number of levels: by induction on it. -/
theorem carries_unary (n : Nat) :
    ρ.Carries ρ.expr (p.unary n) ((ρ.parser p).unary n) := by
  induction n with
  | zero => exact ρ.carries_operand p .none
  | succ n ih => exact ρ.carries_operand p (.some ih)

/-! ## Whole inputs -/

/-- And so is the whole input. -/
theorem whole_carried (ts : Input) :
    (ρ.parser p).whole (ρ.input ts) = carry ρ.expr ρ.fault (p.whole ts) := by
  rw [Parser.whole, Parser.whole]
  show ((ρ.parser p).expression ((ρ.parser p).unary p.limit) (ρ.input ts) >>= _) = _
  rw [ρ.carries_expression p (ρ.carries_unary p p.limit) ts]
  refine carry_bind fun a => ?_
  obtain ⟨e, rest⟩ := a
  cases rest with
  | nil => rfl
  | cons t rest => simp [input_cons, lexeme, carry, Fault.mapPlace]

/-- **Other texts and other places change a parse in these texts and places
alone**: the tree has the other texts, or the fault is in the other place. -/
theorem ofStream_stream (limit : Nat) (s : Stream) :
    Expr.ofStream limit (ρ.stream s) = carry ρ.expr ρ.fault (Expr.ofStream limit s) := by
  have hparser : (⟨limit, ρ.place s.stop, (ρ.input s.lexemes).length⟩ : Parser) =
      ρ.parser ⟨limit, s.stop, s.lexemes.length⟩ := by
    rw [input, List.length_map, parser]
  rw [Expr.ofStream, Expr.ofStream, ← whole_carried, ← hparser, stream]

end Relabelling
end Enablement
