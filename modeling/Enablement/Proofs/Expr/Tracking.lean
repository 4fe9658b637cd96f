import Enablement.Expr.Descent
import Enablement.Proofs.Expr.Settling
import Enablement.Proofs.Token.Tiling

/-!
# Parsing — a descent does what the parser does

The parser of a stream takes lexemes from the front of its input and recurses on
the levels that are left; a descent moves a cursor over tokens and counts the
levels that are open. Where the descent finds the tokens of the stream, up to its
end of input (`Descent.Shows`), the outcome of each production is the result of
the parser on the lexemes from the cursor on (`Descent.Tracks`): a result leaves
the cursor where the parser's rest begins and the counter as it was.

Whatever productions a production calls, it is enough that those give the right
outcome that it can call, behind a token or more tightly (`Descent.Later`). So a
stack of nine calls for each lexeme that is left suffices (`answers_run`).
-/

namespace Enablement

/-! ## The parser, production by production -/

/-- A token without a lexeme is the end of input. -/
@[simp] theorem Token.kind_end (q : Nat) : kind ⟨none, q⟩ = .endOfInput := rfl

/-- Any other token has the kind of its lexeme. -/
@[simp] theorem Token.kind_lexeme (l : Lexeme) (q : Nat) : kind ⟨some l, q⟩ = l.kind := rfl

/-- The kind of a symbol is that of the symbol alone. -/
theorem Lexeme.kind_eq_symbol_iff {l : Lexeme} {y : Symbol} :
    l.kind = .symbol y ↔ l = .symbol y := by
  cases l <;> simp [kind]

/-- The operator before an operand that the input starts with, its place and what
follows it. -/
def Parser.unaryOpAt : Input → Option (UnaryOp × Nat × Input)
  | ⟨.symbol y, place⟩ :: ts => (UnaryOp.ofSymbol? y).map fun op => (op, place, ts)
  | _ => none

/-- An operand that starts with no operator. -/
def Parser.primary (p : Parser) (inner : Option (Parse Expr)) (ts : Input) :
    Except Fault (Expr × Input) :=
  match unaryOpAt ts with
  | some _ => .error (p.unexpected .operand ts)
  | none => p.operand inner ts

/-- An operand is an operator applied to one, or it starts with no operator. -/
theorem Parser.operand_eq (p : Parser) (inner : Option (Parse Expr)) (ts : Input) :
    p.operand inner ts =
      match unaryOpAt ts with
      | some (op, place, ts) => p.prefixed inner op place ts
      | none => p.primary inner ts := by
  rw [primary]
  split
  next op place us h =>
    unfold unaryOpAt at h
    split at h
    next y q us' =>
      obtain ⟨op', hop, heq⟩ := Option.map_eq_some_iff.1 h
      cases heq
      simp [operand, hop]
    next => cases h
  next h => simp [h]

/-- The arguments behind those that were read, through the closing parenthesis. -/
def Parser.argumentsBehind (p : Parser) (step : Parse Expr) (m : Nat) (args : List Expr)
    (ts : Input) : Except Fault (List Expr × Input) :=
  p.moreArguments step m ts >>= fun r => .ok (args ++ r.1, r.2)

/-- Behind a comma one more argument is read and put behind those that are there. -/
theorem Parser.argumentsBehind_comma (p : Parser) (step : Parse Expr) (m : Nat)
    (args : List Expr) (q : Nat) (ts : Input) :
    p.argumentsBehind step (m + 1) args (⟨.symbol .comma, q⟩ :: ts) =
      step ts >>= fun r => p.argumentsBehind step m (args ++ [r.1]) r.2 := by
  rw [argumentsBehind, moreArguments, bind_assoc]
  refine congrArg _ (funext fun r => ?_)
  rw [argumentsBehind, bind_assoc]
  refine congrArg _ (funext fun r' => ?_)
  simp [bind, Except.bind]

/-- Where no comma stands the arguments are to be closed. -/
theorem Parser.argumentsBehind_of_ne (p : Parser) (step : Parse Expr) (m : Nat)
    (args : List Expr) {ts : Input} (h : ∀ q us, ts ≠ ⟨.symbol .comma, q⟩ :: us) :
    p.argumentsBehind step m args ts =
      p.expect .rightParen .commaOrClosingParen ts >>= fun ts => .ok (args, ts) := by
  rw [argumentsBehind, moreArguments, bind_assoc]
  · refine congrArg _ (funext fun r => ?_)
    simp [bind, Except.bind]
  · exact fun _ q us _ => h q us

namespace Descent

section

variable {α β : Type} {d : Descent} {st st' : State} {t : Token} {i n : Nat}

/-! ## What a step gives in a state -/

/-- Two steps in a row, from a state. -/
theorem bind_eq (x : Step α) (f : α → Step β) :
    (x >>= f) st = x st >>= fun r => ExceptT.bindCont f r.1 r.2 := rfl

/-- Where the first has no outcome, neither do the two. -/
theorem bind_of_none {x : Step α} (h : x st = none) (f : α → Step β) : (x >>= f) st = none := by
  rw [bind_eq, h]
  rfl

/-- Where the first has a value, the second goes on with it. -/
theorem bind_of_ok {x : Step α} {a : α} (h : x st = some (.ok a, st')) (f : α → Step β) :
    (x >>= f) st = f a st' := by
  rw [bind_eq, h]
  rfl

/-- Where the first ends in a fault, so do the two. -/
theorem bind_of_error {x : Step α} {e : Fault} (h : x st = some (.error e, st')) (f : α → Step β) :
    (x >>= f) st = some (.error e, st') := by
  rw [bind_eq, h]
  rfl

/-- To look at a token moves nothing. -/
theorem peek_eq (h : d.look i = some t) : d.peek ⟨i, n⟩ = some (.ok t, ⟨i, n⟩) := by
  have hget : (get : Step State) ⟨i, n⟩ = some (.ok ⟨i, n⟩, ⟨i, n⟩) := rfl
  rw [peek, bind_of_ok hget, h]
  rfl

/-- The cursor goes past a lexeme. -/
theorem advance_eq (h : d.look i = some t) (ht : t.kind ≠ .endOfInput) :
    d.advance ⟨i, n⟩ = some (.ok t, ⟨i + 1, n⟩) := by
  rw [advance, bind_of_ok (peek_eq h), if_pos ht]
  rfl

/-- To pass a token moves the cursor by one, unless the input ends. -/
theorem discard_advance_eq (h : d.look i = some t) (ht : t.kind ≠ .endOfInput) :
    (discard d.advance : Step Unit) ⟨i, n⟩ = some (.ok (), ⟨i + 1, n⟩) := by
  have hdiscard : (discard d.advance : Step Unit) = d.advance >>= fun _ => pure () := rfl
  rw [hdiscard, bind_of_ok (advance_eq h ht)]
  rfl

/-- The counter is raised, and then compared with the limit. -/
theorem nested_eq_ite (x : Step α) :
    d.nested x ⟨i, n⟩ =
      (if d.limit < n + 1 then do throw (.nestingTooDeep d.limit (← d.peek).offset)
      else do
        let r ← ExceptT.lift x.run
        modify fun st => { st with depth := st.depth - 1 }
        ExceptT.mk (pure r) : Step α) ⟨i, n + 1⟩ := rfl

/-- A level that the limit does not allow is refused with the place of the token
under the cursor. -/
theorem nested_eq_error (h : d.look i = some t) (hn : d.limit ≤ n) (x : Step α) :
    d.nested x ⟨i, n⟩ = some (.error (.nestingTooDeep d.limit t.offset), ⟨i, n + 1⟩) := by
  rw [nested_eq_ite, if_pos (Nat.lt_succ_of_le hn), bind_of_ok (peek_eq h)]
  rfl

/-- The counter is set back after a fault as it is after a result. -/
theorem nested_eq {x : Step α} {r : Except Fault α} (hn : n < d.limit)
    (hx : x ⟨i, n + 1⟩ = some (r, st)) :
    d.nested x ⟨i, n⟩ = some (r, { st with depth := st.depth - 1 }) := by
  have hlift : (ExceptT.lift x.run : Step (Except Fault α)) ⟨i, n + 1⟩ = some (.ok r, st) := by
    show (x _).bind _ = _
    rw [hx]
    rfl
  rw [nested_eq_ite, if_neg (Nat.not_lt.2 hn), bind_of_ok hlift]
  rfl

end

/-! ## The stream under the cursor -/

/-- The tokens up to the end of input are those of the stream. What is found behind
it is left open. -/
def Shows (d : Descent) (s : Stream) : Prop :=
  ∀ i ≤ s.lexemes.length, d.look i = s.toTokens[i]?

variable {d : Descent} {s : Stream} {i n : Nat}

/-- Under the cursor stands the end of input, or the next lexeme. -/
theorem Shows.cases (hd : d.Shows s) (hi : i ≤ s.lexemes.length) :
    (s.lexemes.drop i = [] ∧ d.look i = some ⟨none, s.stop⟩) ∨
      ∃ l q, i < s.lexemes.length ∧ s.lexemes.drop i = ⟨l, q⟩ :: s.lexemes.drop (i + 1) ∧
        d.look i = some ⟨some l, q⟩ := by
  rw [hd i hi, Stream.toTokens]
  rcases Nat.eq_or_lt_of_le hi with rfl | hlt
  · exact .inl ⟨List.drop_length, by simp⟩
  · refine .inr ⟨_, _, hlt, List.drop_eq_getElem_cons hlt, ?_⟩
    rw [List.getElem?_append_left (by simpa using hlt), List.getElem?_map,
      List.getElem?_eq_getElem hlt]
    rfl

variable {α β : Type}

/-- **The outcome is the result of the parser**, from a place on and with so many
levels open: what the parser leaves begins under the cursor. -/
inductive Tracks (s : Stream) (lo n : Nat) :
    Except Fault (α × Input) → Option (Except Fault α × State) → Prop
  /-- The same result. -/
  | ok (a : α) {j : Nat} : lo ≤ j → j ≤ s.lexemes.length →
      Tracks s lo n (.ok (a, s.lexemes.drop j)) (some (.ok a, ⟨j, n⟩))
  /-- The same fault. -/
  | error (f : Fault) (st : State) : Tracks s lo n (.error f) (some (.error f, st))

namespace Tracks

variable {lo lo' : Nat} {r : Except Fault (α × Input)} {o : Option (Except Fault α × State)}

/-- What is at or behind a place is at or behind an earlier one. -/
theorem mono (h : Tracks s lo n r o) (hlo : lo' ≤ lo) : Tracks s lo' n r o := by
  cases h with
  | ok a hj hle => exact .ok a (Nat.le_trans hlo hj) hle
  | error f st => exact .error f st

/-- **Two steps in a row track the parser if each does.** -/
theorem bind {x : Step α} {st : State} {g : α × Input → Except Fault (β × Input)}
    {f : α → Step β} {m : Nat} (h : Tracks s lo m r (x st))
    (hg : ∀ a j, lo ≤ j → j ≤ s.lexemes.length →
      Tracks s lo' n (g (a, s.lexemes.drop j)) (f a ⟨j, m⟩)) :
    Tracks s lo' n (r >>= g) ((x >>= f) st) := by
  generalize hx : x st = o at h
  cases h with
  | ok a hj hle =>
    rw [bind_of_ok hx]
    exact hg a _ hj hle
  | error e st' =>
    rw [bind_of_error hx]
    exact .error e st'

end Tracks

/-! ## The small steps -/

/-- The parser of the stream under the limit of the descent. -/
def parser (d : Descent) (s : Stream) : Parser := ⟨d.limit, s.stop, s.lexemes.length⟩

/-- The parser's step for an operand where `n` levels are open. -/
def operandAt (d : Descent) (s : Stream) (n : Nat) : Parse Expr :=
  (d.parser s).unary (d.limit - n)

/-- The parser's step for an operand one level further down, if the limit allows it. -/
def innerAt (d : Descent) (s : Stream) (n : Nat) : Option (Parse Expr) :=
  if n < d.limit then some (d.operandAt s (n + 1)) else none

/-- The operand under the cursor is one of the parser with what is left to nest. -/
theorem operandAt_eq (n : Nat) : d.operandAt s n = (d.parser s).operand (d.innerAt s n) := by
  rw [operandAt, innerAt]
  by_cases h : n < d.limit
  · rw [if_pos h, operandAt, show d.limit - n = d.limit - (n + 1) + 1 by omega]
    rfl
  · rw [if_neg h, show d.limit - n = 0 by omega]
    rfl

/-- The operator in front is the one that the token is. -/
theorem operatorAt_cons (k : Nat) (l : Lexeme) (q : Nat) (us : Input) :
    Parser.operatorAt k (⟨l, q⟩ :: us) = (operator? k ⟨some l, q⟩).map fun op => (op, q, us) := by
  cases l with
  | symbol y =>
    simp only [Parser.operatorAt, operator?, Token.kind_lexeme, Lexeme.kind]
    cases Operator.ofSymbol? y with
    | none => rfl
    | some op => by_cases hop : op.rank = k <;> simp [hop, Option.filter]
  | identifier | boolean | integer | string => rfl

/-- An operator before its operand is told by its token. -/
theorem unaryOpAt_cons (l : Lexeme) (q : Nat) (us : Input) :
    Parser.unaryOpAt (⟨l, q⟩ :: us) = (unaryOp? ⟨some l, q⟩).map fun op => (op, q, us) := by
  cases l <;> rfl

section

variable {lo : Nat} (hd : d.Shows s)

/-- A tree that is let through is let through on both sides, and one that is too deep on
neither. -/
theorem tracks_bounded {place : Nat} {e : Expr} {g : Expr → Except Fault (β × Input)}
    {f : Expr → Step β} {st : State} (h : Tracks s lo n (g e) (f e st)) :
    Tracks s lo n ((d.parser s).bounded place e >>= g) ((d.bounded place e >>= f) st) := by
  have hlimit : (d.parser s).limit = d.limit := rfl
  rw [Parser.bounded, bounded, hlimit]
  by_cases hdeep : e.depth ≤ d.limit
  · rw [if_pos hdeep, if_neg (Nat.not_lt.2 hdeep)]
    exact h
  · rw [if_neg hdeep, if_pos (Nat.not_le.1 hdeep)]
    exact .error _ _

/-- The last step of a production that makes a node. -/
theorem tracks_node {place j : Nat} {e : Expr} (hj : lo ≤ j) (hle : j ≤ s.lexemes.length) :
    Tracks s lo n ((d.parser s).bounded place e >>= fun e => .ok (e, s.lexemes.drop j))
      (d.bounded place e ⟨j, n⟩) := by
  have hpure : Tracks s lo n (.ok (e, s.lexemes.drop j)) ((pure e : Step Expr) ⟨j, n⟩) :=
    .ok e hj hle
  rw [← bind_pure (d.bounded place e)]
  exact tracks_bounded hpure

include hd

/-- The fault of a token that is out of place speaks of the token under the cursor. -/
theorem unexpected_eq (hi : i ≤ s.lexemes.length) (w : Expected) :
    (d.unexpected w : Step α) ⟨i, n⟩ =
      some (.error ((d.parser s).unexpected w (s.lexemes.drop i)), ⟨i, n⟩) := by
  rcases hd.cases hi with ⟨hdrop, hlook⟩ | ⟨l, q, -, hdrop, hlook⟩
  · rw [hdrop, unexpected, bind_of_ok (peek_eq hlook), Token.kind_end, if_pos rfl]
    rfl
  · rw [hdrop, unexpected, bind_of_ok (peek_eq hlook), Token.kind_lexeme,
      if_neg l.kind_ne_endOfInput]
    rfl

/-- A symbol that is asked for is passed, or is the fault, on both sides. -/
theorem tracks_expect (hi : i ≤ s.lexemes.length) (y : Symbol) (w : Expected) (a : α) :
    Tracks s (i + 1) n
      ((d.parser s).expect y w (s.lexemes.drop i) >>= fun ts => .ok (a, ts))
      ((d.expect y w >>= fun _ => pure a) ⟨i, n⟩) := by
  have hunexpected := unexpected_eq (α := Unit) (n := n) hd hi w
  rcases hd.cases hi with ⟨hdrop, hlook⟩ | ⟨l, q, hlt, hdrop, hlook⟩
  · have hexpect : d.expect y w ⟨i, n⟩ = d.unexpected w ⟨i, n⟩ := by
      rw [expect, bind_of_ok (peek_eq hlook), Token.kind_end, if_neg nofun]
    rw [bind_of_error (hexpect.trans hunexpected), hdrop]
    exact .error _ _
  · rw [hdrop, Parser.expect]
    by_cases hl : l = .symbol y
    · have hexpect : d.expect y w ⟨i, n⟩ = some (.ok (), ⟨i + 1, n⟩) := by
        rw [expect, bind_of_ok (peek_eq hlook), Token.kind_lexeme,
          if_pos (Lexeme.kind_eq_symbol_iff.2 hl)]
        exact discard_advance_eq hlook l.kind_ne_endOfInput
      rw [if_pos hl, bind_of_ok hexpect]
      exact .ok a (Nat.le_refl _) hlt
    · have hexpect : d.expect y w ⟨i, n⟩ = d.unexpected w ⟨i, n⟩ := by
        rw [expect, bind_of_ok (peek_eq hlook), Token.kind_lexeme,
          if_neg (mt Lexeme.kind_eq_symbol_iff.1 hl)]
      rw [if_neg hl, bind_of_error (hexpect.trans hunexpected), hdrop]
      exact .error _ _

/-- Where the limit allows one level more, this is what is read on that level. -/
theorem tracks_nested (hi : i ≤ s.lexemes.length) {f : Parse Expr → Parse α} {x : Step α}
    (h : n < d.limit →
      Tracks s lo (n + 1) (f (d.operandAt s (n + 1)) (s.lexemes.drop i)) (x ⟨i, n + 1⟩)) :
    Tracks s lo n ((d.parser s).nested ((d.innerAt s n).map f) (s.lexemes.drop i))
      (d.nested x ⟨i, n⟩) := by
  rw [innerAt]
  by_cases hn : n < d.limit
  · rw [if_pos hn, Option.map_some, Parser.nested]
    replace h := h hn
    generalize hr : f (d.operandAt s (n + 1)) (s.lexemes.drop i) = r at h
    generalize hx : x ⟨i, n + 1⟩ = o at h
    cases h with
    | ok a hj hle =>
      rw [nested_eq hn hx]
      exact .ok a hj hle
    | error e st =>
      rw [nested_eq hn hx]
      exact .error e _
  · rw [if_neg hn, Option.map_none, Parser.nested]
    have hlimit : d.limit ≤ n := Nat.not_lt.1 hn
    rcases hd.cases hi with ⟨hdrop, hlook⟩ | ⟨l, q, -, hdrop, hlook⟩ <;>
    · rw [hdrop, nested_eq_error hlook hlimit]
      exact .error _ _

/-! ## The productions -/

/-- One round of a loop, where the step for operands is behind its operator. -/
theorem tracks_rest {k : Nat} {left : Expr} {operand : Step Expr} {again : Expr → Step Expr}
    {step : Parse Expr} {m : Nat} (hi : i ≤ s.lexemes.length) (hm : s.lexemes.length - i ≤ m)
    (hoperand : i < s.lexemes.length →
      Tracks s (i + 2) n (step (s.lexemes.drop (i + 1))) (operand ⟨i + 1, n⟩))
    (hagain : ∀ e j m, i < j → j ≤ s.lexemes.length → s.lexemes.length - j ≤ m →
      Tracks s j n ((d.parser s).extend k step m e (s.lexemes.drop j)) (again e ⟨j, n⟩)) :
    Tracks s i n ((d.parser s).extend k step m left (s.lexemes.drop i))
      (d.rest k left operand again ⟨i, n⟩) := by
  have hstop : Tracks s i n (.ok (left, s.lexemes.drop i)) ((pure left : Step Expr) ⟨i, n⟩) :=
    .ok left (Nat.le_refl i) hi
  rcases hd.cases hi with ⟨hdrop, hlook⟩ | ⟨l, q, hlt, hdrop, hlook⟩
  · rw [hdrop, (d.parser s).extend_of_stops stops_nil, ← hdrop, rest,
      bind_of_ok (peek_eq hlook)]
    exact hstop
  -- a lexeme is left, so the number that bounds the rounds is not used up
  · obtain ⟨m, rfl⟩ : ∃ m', m = m' + 1 := ⟨m - 1, by omega⟩
    rw [hdrop, Parser.extend, operatorAt_cons, rest, bind_of_ok (peek_eq hlook)]
    cases operator? k ⟨some l, q⟩ with
    | none =>
      rw [← hdrop]
      exact hstop
    | some op =>
      simp only [Option.map_some]
      rw [bind_of_ok (advance_eq hlook l.kind_ne_endOfInput)]
      -- the operand moved the cursor past `i + 1`, and one round less covers what is left
      refine (hoperand hlt).bind fun right j hj hle => tracks_bounded ?_
      exact (hagain _ j m (by omega) hle (by omega)).mono (by omega)

/-- An operator before an operand, or else a primary expression. -/
theorem tracks_prefixed {operand primary : Step Expr} (hi : i ≤ s.lexemes.length)
    (hoperand : i < s.lexemes.length → n < d.limit →
      Tracks s (i + 2) (n + 1) (d.operandAt s (n + 1) (s.lexemes.drop (i + 1)))
        (operand ⟨i + 1, n + 1⟩))
    (hprimary : Tracks s (i + 1) n ((d.parser s).primary (d.innerAt s n) (s.lexemes.drop i))
      (primary ⟨i, n⟩)) :
    Tracks s (i + 1) n (d.operandAt s n (s.lexemes.drop i))
      (d.prefixed operand primary ⟨i, n⟩) := by
  rw [operandAt_eq]
  -- where nothing is left, or no operator stands there, both sides are the primary expression
  rcases hd.cases hi with ⟨hdrop, hlook⟩ | ⟨l, q, hlt, hdrop, hlook⟩
  · rw [prefixed, bind_of_ok (peek_eq hlook), hdrop]
    rw [hdrop] at hprimary
    exact hprimary
  · rw [prefixed, bind_of_ok (peek_eq hlook), Parser.operand_eq, hdrop,
      unaryOpAt_cons]
    cases unaryOp? ⟨some l, q⟩ with
    | none =>
      rw [hdrop] at hprimary
      exact hprimary
    | some op =>
      simp only [Option.map_some]
      rw [bind_of_ok (advance_eq hlook l.kind_ne_endOfInput), Parser.prefixed]
      have hnested := tracks_nested (f := id) hd hlt (hoperand hlt)
      rw [Option.map_id, id] at hnested
      exact hnested.bind fun x j hj hle => tracks_node (by omega) hle

/-- A name is a call where a parenthesis follows it, and else a variable. -/
theorem tracks_named {arguments : Step (List Expr)} {name : String} {q : Nat}
    (hlt : i < s.lexemes.length)
    (harguments : i + 1 < s.lexemes.length → n < d.limit →
      Tracks s (i + 3) (n + 1)
        ((d.parser s).arguments ((d.parser s).expression (d.operandAt s (n + 1)))
          (s.lexemes.drop (i + 2)))
        (arguments ⟨i + 2, n + 1⟩)) :
    Tracks s (i + 1) n
      ((d.parser s).primary (d.innerAt s n) (⟨.identifier name, q⟩ :: s.lexemes.drop (i + 1)))
      (d.named name q arguments ⟨i + 1, n⟩) := by
  have hparam : Tracks s (i + 1) n (.ok (.param name, s.lexemes.drop (i + 1)))
      ((pure (.param name) : Step Expr) ⟨i + 1, n⟩) := .ok _ (Nat.le_refl _) hlt
  rcases hd.cases (i := i + 1) hlt with ⟨hdrop, hlook⟩ | ⟨l, q', hlt', hdrop, hlook⟩
  · rw [named, bind_of_ok (peek_eq hlook), Token.kind_end, if_neg nofun]
    rw [hdrop] at hparam ⊢
    exact hparam
  · rw [named, bind_of_ok (peek_eq hlook), Token.kind_lexeme]
    -- the parser tells a call from a variable by two lexemes at once, the descent one by one
    by_cases hl : l = .symbol .leftParen
    · subst hl
      rw [if_pos (Lexeme.kind_eq_symbol_iff.2 rfl),
        bind_of_ok (discard_advance_eq hlook nofun), hdrop]
      have hnested := tracks_nested hd hlt'
        (f := fun step => (d.parser s).arguments ((d.parser s).expression step)) (harguments hlt')
      exact hnested.bind fun args j hj hle => tracks_node (by omega) hle
    · rw [if_neg (mt Lexeme.kind_eq_symbol_iff.1 hl)]
      rw [hdrop] at hparam ⊢
      -- only the pattern of a call could have matched instead, and it needs the parenthesis
      have hvariable : (d.parser s).primary (d.innerAt s n)
          (⟨.identifier name, q⟩ :: ⟨l, q'⟩ :: s.lexemes.drop (i + 1 + 1)) =
          .ok (.param name, ⟨l, q'⟩ :: s.lexemes.drop (i + 1 + 1)) := by
        cases l with
        | symbol y => cases y <;> first | rfl | exact absurd rfl hl
        | _ => rfl
      rw [hvariable]
      exact hparam

/-- A primary expression. -/
theorem tracks_primary {expression : Step Expr} {arguments : Step (List Expr)}
    (hi : i ≤ s.lexemes.length)
    (hexpression : i < s.lexemes.length → n < d.limit →
      Tracks s (i + 2) (n + 1)
        ((d.parser s).expression (d.operandAt s (n + 1)) (s.lexemes.drop (i + 1)))
        (expression ⟨i + 1, n + 1⟩))
    (harguments : i + 1 < s.lexemes.length → n < d.limit →
      Tracks s (i + 3) (n + 1)
        ((d.parser s).arguments ((d.parser s).expression (d.operandAt s (n + 1)))
          (s.lexemes.drop (i + 2)))
        (arguments ⟨i + 2, n + 1⟩)) :
    Tracks s (i + 1) n ((d.parser s).primary (d.innerAt s n) (s.lexemes.drop i))
      (d.primary expression arguments ⟨i, n⟩) := by
  have hrefused : Tracks s (i + 1) n
      (.error ((d.parser s).unexpected .operand (s.lexemes.drop i)))
      ((d.unexpected .operand : Step Expr) ⟨i, n⟩) := by
    rw [unexpected_eq hd hi]
    exact .error _ _
  rcases hd.cases hi with ⟨hdrop, hlook⟩ | ⟨l, q, hlt, hdrop, hlook⟩
  · rw [primary, bind_of_ok (peek_eq hlook)]
    rw [hdrop] at hrefused ⊢
    exact hrefused
  · have hadvance := advance_eq (n := n) hlook l.kind_ne_endOfInput
    have hdiscard := discard_advance_eq (n := n) hlook l.kind_ne_endOfInput
    rw [primary, bind_of_ok (peek_eq hlook), hdrop]
    rw [hdrop] at hrefused
    cases l with
    | symbol y =>
      cases y with
      | leftParen =>
        simp only
        rw [bind_of_ok hdiscard]
        have hnested := tracks_nested (f := (d.parser s).expression) hd hlt (hexpression hlt)
        -- the closing parenthesis is looked for where the inner expression ended
        refine hnested.bind fun e j hj hle => ?_
        exact (tracks_expect hd hle .rightParen .closingParen e).mono (by omega)
      | _ => exact hrefused
    | identifier name =>
      simp only
      rw [bind_of_ok hadvance]
      exact tracks_named hd hlt harguments
    | boolean text =>
      simp only
      rw [bind_of_ok hdiscard]
      exact .ok _ (Nat.le_refl _) hlt
    | integer text =>
      simp only
      rw [bind_of_ok hadvance]
      simp only [Parser.primary, Parser.unaryOpAt, Parser.operand]
      cases Text.int32OfText? text with
      | some v => exact .ok _ (Nat.le_refl _) hlt
      | none => exact .error _ _
    | string text =>
      simp only
      rw [bind_of_ok hdiscard]
      exact .ok _ (Nat.le_refl _) hlt

/-- The arguments behind those that were read: one round of the loop. -/
theorem tracks_moreArguments {args : List Expr} {expression : Step Expr}
    {again : List Expr → Step (List Expr)} {step : Parse Expr} {m : Nat}
    (hi : i ≤ s.lexemes.length) (hm : s.lexemes.length - i ≤ m)
    (hexpression : i < s.lexemes.length →
      Tracks s (i + 2) n (step (s.lexemes.drop (i + 1))) (expression ⟨i + 1, n⟩))
    (hagain : ∀ args j m, i < j → j ≤ s.lexemes.length → s.lexemes.length - j ≤ m →
      Tracks s (j + 1) n ((d.parser s).argumentsBehind step m args (s.lexemes.drop j))
        (again args ⟨j, n⟩)) :
    Tracks s (i + 1) n ((d.parser s).argumentsBehind step m args (s.lexemes.drop i))
      (d.moreArguments args expression again ⟨i, n⟩) := by
  have hclose := tracks_expect (n := n) hd hi .rightParen .commaOrClosingParen args
  rcases hd.cases hi with ⟨hdrop, hlook⟩ | ⟨l, q, hlt, hdrop, hlook⟩
  · rw [moreArguments, bind_of_ok (peek_eq hlook), Token.kind_end, if_neg nofun,
      Parser.argumentsBehind_of_ne]
    · exact hclose
    · rw [hdrop]
      exact nofun
  · obtain ⟨m, rfl⟩ : ∃ m', m = m' + 1 := ⟨m - 1, by omega⟩
    rw [moreArguments, bind_of_ok (peek_eq hlook), Token.kind_lexeme]
    by_cases hl : l = .symbol .comma
    · subst hl
      rw [if_pos (Lexeme.kind_eq_symbol_iff.2 rfl), bind_of_ok (discard_advance_eq hlook nofun),
        hdrop, Parser.argumentsBehind_comma]
      refine (hexpression hlt).bind fun e j hj hle => ?_
      exact (hagain _ j m (by omega) hle (by omega)).mono (by omega)
    -- anything but a comma ends the loop, so the parenthesis is due
    · rw [if_neg (mt Lexeme.kind_eq_symbol_iff.1 hl), Parser.argumentsBehind_of_ne]
      · exact hclose
      · rw [hdrop]
        intro q' us heq
        cases heq
        exact hl rfl

/-- The arguments of a call. -/
theorem tracks_arguments {expression : Step Expr} {more : List Expr → Step (List Expr)}
    {step : Parse Expr} (hi : i ≤ s.lexemes.length)
    (hexpression : Tracks s (i + 1) n (step (s.lexemes.drop i)) (expression ⟨i, n⟩))
    (hmore : ∀ args j m, i < j → j ≤ s.lexemes.length → s.lexemes.length - j ≤ m →
      Tracks s (j + 1) n ((d.parser s).argumentsBehind step m args (s.lexemes.drop j))
        (more args ⟨j, n⟩)) :
    Tracks s (i + 1) n ((d.parser s).arguments step (s.lexemes.drop i))
      (d.arguments expression more ⟨i, n⟩) := by
  -- the first argument followed by the loop, which is what both sides do unless the call is empty
  have hfirst : Tracks s (i + 1) n
      (step (s.lexemes.drop i) >>= fun r =>
        (d.parser s).argumentsBehind step s.lexemes.length [r.1] r.2)
      ((expression >>= fun e => more [e]) ⟨i, n⟩) :=
    hexpression.bind fun e j hj hle => (hmore [e] j _ hj hle (by omega)).mono (by omega)
  rcases hd.cases hi with ⟨hdrop, hlook⟩ | ⟨l, q, hlt, hdrop, hlook⟩
  · rw [arguments, bind_of_ok (peek_eq hlook), Token.kind_end, if_neg nofun]
    rw [hdrop] at hfirst ⊢
    exact hfirst
  · rw [arguments, bind_of_ok (peek_eq hlook), Token.kind_lexeme]
    by_cases hl : l = .symbol .rightParen
    · subst hl
      rw [if_pos (Lexeme.kind_eq_symbol_iff.2 rfl), bind_of_ok (discard_advance_eq hlook nofun),
        hdrop]
      exact .ok _ (Nat.le_refl _) hlt
    · rw [if_neg (mt Lexeme.kind_eq_symbol_iff.1 hl), Parser.arguments]
      · exact hfirst
      · rw [hdrop]
        intro q' us heq
        cases heq
        exact hl rfl

end

/-! ## All productions -/

/-- How loosely a production reads. One that calls another in the same place calls a
tighter one; the rounds of loops call none there. -/
def Production.level : Production → Nat
  | .primary | .rest .. | .moreArguments _ => 0
  | .ranked k => k + 1
  | .arguments => Operator.topRank + 2

/-- There are eight levels at most. -/
theorem Production.level_le (c : Production) : c.level ≤ 8 := by
  cases c with
  | ranked k =>
    have : k.val < Operator.topRank + 1 := k.isLt
    simp only [level, Operator.topRank] at this ⊢
    omega
  | _ => simp [level, Operator.topRank]

/-- **A call that a production can make**: of any production behind a token that it
went past, or of a tighter one where it stands; and one level further down at most,
as far as the limit allows it. -/
structure Later (d : Descent) (c : Production) (st : State) (c' : Production) (st' : State) :
    Prop where
  /-- A token was taken, or the production is tighter. -/
  cursor : st.cursor < st'.cursor ∨ st'.cursor = st.cursor ∧ c'.level < c.level
  /-- As many levels are open, or one more. -/
  depth : st'.depth = st.depth ∨ st'.depth = st.depth + 1 ∧ st'.depth ≤ d.limit

/-- **The outcome of a production is right** for a state: it is what the parser makes
of the lexemes from the cursor on. -/
def Answers (d : Descent) (s : Stream) :
    (c : Production) → State → Option (Except Fault c.Result × State) → Prop
  | .primary, ⟨i, n⟩, o =>
    Tracks s (i + 1) n ((d.parser s).primary (d.innerAt s n) (s.lexemes.drop i)) o
  | .ranked k, ⟨i, n⟩, o =>
    Tracks s (i + 1) n ((d.parser s).ranked (d.operandAt s n) k (s.lexemes.drop i)) o
  | .rest k left, ⟨i, n⟩, o =>
    ∀ m, s.lexemes.length - i ≤ m →
      Tracks s i n
        ((d.parser s).extend k ((d.parser s).ranked (d.operandAt s n) (k - 1)) m left
          (s.lexemes.drop i)) o
  | .arguments, ⟨i, n⟩, o =>
    Tracks s (i + 1) n
      ((d.parser s).arguments ((d.parser s).expression (d.operandAt s n)) (s.lexemes.drop i)) o
  | .moreArguments args, ⟨i, n⟩, o =>
    ∀ m, s.lexemes.length - i ≤ m →
      Tracks s (i + 1) n
        ((d.parser s).argumentsBehind ((d.parser s).expression (d.operandAt s n)) m args
          (s.lexemes.drop i)) o

section

variable (hd : d.Shows s)

include hd

/-- **A production is right if those are that it can call.** -/
theorem answers_body {calls : Calls} {c : Production} {st : State}
    (hst : st.cursor ≤ s.lexemes.length)
    (hcalls : ∀ c' st', st'.cursor ≤ s.lexemes.length → d.Later c st c' st' →
      d.Answers s c' st' (calls c' st')) :
    d.Answers s c st (d.body calls c st) := by
  obtain ⟨i, n⟩ := st
  replace hst : i ≤ s.lexemes.length := hst
  -- the three ways in which a body calls: behind a token, there and one level further down,
  -- and a tighter production on the spot
  have hbehind : ∀ c' j, i < j → j ≤ s.lexemes.length →
      d.Answers s c' ⟨j, n⟩ (calls c' ⟨j, n⟩) :=
    fun c' j hj hle => hcalls c' ⟨j, n⟩ hle ⟨.inl hj, .inl rfl⟩
  have hbelow : ∀ c' j, i < j → j ≤ s.lexemes.length → n < d.limit →
      d.Answers s c' ⟨j, n + 1⟩ (calls c' ⟨j, n + 1⟩) :=
    fun c' j hj hle hn => hcalls c' ⟨j, n + 1⟩ hle ⟨.inl hj, .inr ⟨rfl, hn⟩⟩
  have htighter : ∀ c', c'.level < c.level → d.Answers s c' ⟨i, n⟩ (calls c' ⟨i, n⟩) :=
    fun c' hc => hcalls c' ⟨i, n⟩ hst ⟨.inr ⟨rfl, hc⟩, .inl rfl⟩
  cases c with
  | primary =>
    exact tracks_primary hd hst (fun hlt => hbelow .expression _ (Nat.lt_succ_self i) hlt)
      (fun hlt => hbelow .arguments _ (by omega) hlt)
  | ranked k =>
    by_cases hk : k = 0
    · subst hk
      have hprefixed := tracks_prefixed hd hst
        (fun hlt => hbelow (.ranked 0) (i + 1) (Nat.lt_succ_self i) hlt)
        (htighter .primary Nat.zero_lt_one)
      exact hprefixed
    · obtain ⟨k, hlt⟩ := k
      cases k with
      | zero => exact absurd rfl hk
      | succ k =>
        have htight := htighter (.ranked ⟨k, Nat.lt_of_succ_lt hlt⟩) (Nat.lt_succ_self _)
        simp only [body, if_neg hk]
        refine htight.bind fun left j hj hle => ?_
        exact (hbehind (.rest ⟨k + 1, hlt⟩ left) j hj hle _ (Nat.sub_le _ _)).mono hj
  | rest k left =>
    intro m hm
    exact tracks_rest hd hst hm (fun hlt => hbehind (.ranked k.tighter) _ (Nat.lt_succ_self i) hlt)
      (fun e j m hj hle hm => hbehind (.rest k e) j hj hle m hm)
  | arguments =>
    have hexpression : Tracks s (i + 1) n
        ((d.parser s).expression (d.operandAt s n) (s.lexemes.drop i)) (calls .expression ⟨i, n⟩) :=
      htighter .expression (Nat.lt_succ_self _)
    exact tracks_arguments hd hst hexpression
      (fun args j m hj hle hm => hbehind (.moreArguments args) j hj hle m hm)
  | moreArguments args =>
    rw [Answers, body]
    intro m hm
    have hexpression (hlt : i < s.lexemes.length) : Tracks s (i + 2) n
        ((d.parser s).expression (d.operandAt s n) (s.lexemes.drop (i + 1)))
        (calls .expression ⟨i + 1, n⟩) := hbehind .expression _ (Nat.lt_succ_self i) hlt
    exact tracks_moreArguments hd hst hm hexpression
      (fun args j m hj hle hm => hbehind (.moreArguments args) j hj hle m hm)

/-- **Nine calls for each lexeme that is left are enough of a stack.** -/
theorem answers_run (n : Nat) (c : Production) (st : State) (hst : st.cursor ≤ s.lexemes.length)
    (hn : 9 * (s.lexemes.length - st.cursor) + c.level < n) :
    d.Answers s c st (d.run n c st) := by
  induction n generalizing c st with
  | zero => omega
  | succ n ih =>
    refine answers_body hd hst fun c' st' hst' hlater => ih c' st' hst' ?_
    have := c'.level_le
    -- a lexeme pays for nine calls, and no run of ever tighter productions has more than eight
    rcases hlater.cursor with hlt | ⟨heq, hlevel⟩ <;> omega

end

end Descent
end Enablement
