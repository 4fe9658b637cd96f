import Enablement.Proofs.Expr.Levels
import Enablement.Proofs.Expr.Places

/-!
# Parsing — where the limit is crossed

The limit is crossed in two ways, and the fault has its place accordingly. A
tree that is too deep is refused with the place of its root: of the operator,
or of the name that is called. But the lexeme that opens one level too many is
left behind before that is noticed, so the fault has the place of the lexeme
after it, whatever that is (`Crossed`). Which of the two it is can be told from
the levels that are open before the place: they are within the limit, or they
are one more (`Expr.place_of_nestingTooDeep`).
-/

namespace Enablement

open Opener Standing

/-! ## Constructs and their roots -/

/-- The lexemes start with an operator, with a parenthesis that opens, or with
the name of a call. -/
inductive StartsConstruct : List Lexeme → Prop
  /-- An operator before its operand. -/
  | unary (op : UnaryOp) {ts : List Lexeme} : StartsConstruct (.symbol op.symbol :: ts)
  /-- An operator between its operands. -/
  | operator (op : Operator) {ts : List Lexeme} : StartsConstruct (.symbol op.symbol :: ts)
  /-- An opening parenthesis. -/
  | parenthesis {ts : List Lexeme} : StartsConstruct (.symbol .leftParen :: ts)
  /-- A name before a parenthesis. -/
  | call {name : String} {ts : List Lexeme} :
      StartsConstruct (.identifier name :: .symbol .leftParen :: ts)

/-- **A tree that is spelled around a place**, where its root is written: the
first lexemes are before the place, and the others behind it. -/
inductive Rooted : List Lexeme → List Lexeme → Expr → Prop
  /-- An operator before its operand. -/
  | unary {op : UnaryOp} {ts : List Lexeme} {x : Expr} :
      Derives .unary ts x → Rooted [] (.symbol op.symbol :: ts) (.unary op x)
  /-- An operator between its operands. -/
  | operator {op : Operator} {ops : List Operator} {x y : Phrase} {ts us : List Lexeme}
      {l r : Expr} :
      x.chain? = some (ops, y) → op ∈ ops → Derives x ts l → Derives y us r →
      Rooted ts (.symbol op.symbol :: us) (op.apply l r)
  /-- The name of a call. -/
  | call {name : String} {ts : List Lexeme} {es : List Expr} :
      DerivesArguments ts es →
      Rooted [] (.identifier name :: .symbol .leftParen :: (ts ++ [.symbol .rightParen]))
        (.call name es)

/-- What is spelled from its root on starts a construct. -/
theorem Rooted.startsConstruct {us vs ws : List Lexeme} {e : Expr} (h : Rooted us vs e) :
    StartsConstruct (vs ++ ws) := by
  cases h with
  | unary => exact .unary _
  | operator => exact .operator _
  | call => exact .call

/-! ## The two ways to cross the limit -/

/-- **How the limit is crossed** between some lexemes and those behind them. -/
inductive Crossed (limit : Nat) : List Lexeme → List Lexeme → Prop
  /-- No more levels are open than may be, but a tree is too deep whose root is
  written here. -/
  | deep {before behind us vs : List Lexeme} {e : Expr} :
      (after before).level ≤ limit → us <:+ before → vs <+: behind → Rooted us vs e →
      limit < e.depth → Crossed limit before behind
  /-- The lexeme before has opened one level too many. -/
  | opened {before behind : List Lexeme} {t : Lexeme} :
      (after before).Opens t → (after (before ++ [t])).level = limit + 1 →
      Crossed limit (before ++ [t]) behind

namespace Crossed

variable {limit : Nat} {before behind : List Lexeme}

/-- Where no more levels are open than may be, a tree is too deep whose root is here. -/
theorem exists_rooted (h : Crossed limit before behind) (hlevel : (after before).level ≤ limit) :
    ∃ us vs e, us <:+ before ∧ vs <+: behind ∧ Rooted us vs e ∧ limit < e.depth := by
  cases h with
  | deep _ hus hvs hroot hdepth => exact ⟨_, _, _, hus, hvs, hroot, hdepth⟩
  | opened _ hover => omega

/-- Where more are open, the lexeme before has opened one too many. -/
theorem exists_opens (h : Crossed limit before behind) (hlevel : limit < (after before).level) :
    (after before).level = limit + 1 ∧ ∃ us t, before = us ++ [t] ∧ (after us).Opens t := by
  cases h with
  | deep hwithin => omega
  | opened hopens hover => exact ⟨hover, _, _, rfl, hopens⟩

end Crossed

/-- A fault of the limit `n` at the offset `q` tells that it was crossed there,
where the lexemes `before` were read before the input. -/
def Parser.Crosses (p : Parser) (before : List Lexeme) (ts : Input) (n q : Nat) : Prop :=
  n = p.limit ∧ ∃ us rest, ts = us ++ rest ∧ q = p.offset rest ∧
    Crossed p.limit (before ++ us.map (·.val)) (rest.map (·.val))

namespace Parser

/-- **Where the step crosses the limit, its fault tells so**: the step is taken
where an operand has to follow and these levels are open. -/
def Tells {α : Type} (p : Parser) (os : List Opener) (step : Parse α) : Prop :=
  ∀ before ts n q, after before = ⟨true, os⟩ → step ts = .error (.nestingTooDeep n q) →
    p.Crosses before ts n q

variable {p : Parser} {α : Type} {step : Parse Expr} {inner : Option (Parse Expr)}
variable {before : List Lexeme} {us ts rest : Input} {t : Located Lexeme} {n q k : Nat}
variable {os os' : List Opener} {ops : List Operator} {x y : Phrase} {e : Expr}

/-- What is crossed behind lexemes of the input is crossed in it. -/
theorem Crosses.append (h : p.Crosses (before ++ us.map (·.val)) rest n q) :
    p.Crosses before (us ++ rest) n q := by
  obtain ⟨hn, vs, rest', rfl, hq, hcrossed⟩ := h
  refine ⟨hn, us ++ vs, rest', (List.append_assoc ..).symm, hq, ?_⟩
  rwa [List.map_append, ← List.append_assoc]

/-- What is crossed behind a token is crossed in the input with it. -/
theorem Crosses.cons (h : p.Crosses (before ++ [t.val]) ts n q) :
    p.Crosses before (t :: ts) n q :=
  @append p before [t] ts n q h

/-- A node that is refused crosses the limit where its root is written. -/
theorem crosses_of_bounded {bs vs : List Lexeme}
    (h : p.bounded t.offset e = .error (.nestingTooDeep n q))
    (hlevel : (after before).level ≤ p.limit) (hbs : bs <:+ before)
    (hvs : vs <+: (t :: ts).map (·.val)) (hroot : Rooted bs vs e) :
    p.Crosses before (t :: ts) n q := by
  unfold bounded at h
  split at h
  · cases h
  next hdepth =>
    obtain ⟨rfl, rfl⟩ := Fault.nestingTooDeep.inj (Except.error.inj h)
    refine ⟨rfl, [], t :: ts, rfl, rfl, ?_⟩
    rw [List.map_nil, List.append_nil]
    exact .deep hlevel hbs hvs hroot (Nat.lt_of_not_le hdepth)

/-- A symbol that is missing does not cross the limit. -/
theorem expect_ne_nestingTooDeep {s : Symbol} {w : Expected} :
    p.expect s w ts ≠ .error (.nestingTooDeep n q) := by
  intro h
  cases ts with
  | nil => cases h
  | cons t ts =>
    rw [expect] at h
    split at h <;> cases h

/-! ## Chains -/

/-- **A chain tells where it crosses the limit**: at one of its operators, or in an
operand. -/
theorem tells_extend (hc : x.chain? = some (ops, y)) (hstep : p.Tells os step)
    (hsound : Sound step (Derives y)) (hlevel : os.length ≤ p.limit) (m : Nat) {l : Expr}
    {as bs : List Lexeme} (hl : Derives x bs l) (hbefore : after (as ++ bs) = ⟨false, os'⟩)
    (hos : settle os' = os) (h : p.extend x.rank step m l ts = .error (.nestingTooDeep n q)) :
    p.Crosses (as ++ bs) ts n q := by
  induction m generalizing l ts bs os' with
  | zero => cases h
  | succ m ih =>
    rw [extend] at h
    split at h
    next => cases h
    next op place us ho =>
      obtain ⟨rfl, hk⟩ := operatorAt_eq_some ho
      have hop : op ∈ ops := ((Phrase.rank_of_chain? hc).2.2 op).2 hk
      have hnext : after (as ++ bs ++ [.symbol op.symbol]) = ⟨true, os⟩ := by
        rw [after_concat hbefore, next_operator, hos]
      rcases bind_eq_error h with hr | ⟨⟨r, rest⟩, hr, h₁⟩
      · exact .cons (hstep _ _ _ _ hnext hr)
      obtain ⟨vs, rfl, hvs⟩ := hsound _ _ _ hr
      -- with the operand behind it the operator is refused, or it is the left operand of the next
      rcases bind_eq_error h₁ with he | ⟨e, he, h₂⟩
      · have hlevel' : (after (as ++ bs)).level ≤ p.limit := by rwa [hbefore, level, hos]
        refine crosses_of_bounded (t := ⟨.symbol op.symbol, place⟩) he hlevel'
          (List.suffix_append as bs) ?_ (.operator hc hop hl hvs)
        exact ⟨rest.map (·.val), by simp⟩
      · obtain rfl := p.eq_of_bounded he
        obtain ⟨os'', hread, hos''⟩ := hvs.after_eq hnext
        have hmore : Derives x (bs ++ .symbol op.symbol :: vs.map (·.val)) (op.apply l r) :=
          .snoc hc hop hl hvs
        have hall : as ++ bs ++ [.symbol op.symbol] ++ vs.map (·.val) =
            as ++ (bs ++ .symbol op.symbol :: vs.map (·.val)) := by simp
        have htell := ih hmore (hall ▸ hread) (hos''.trans (by rw [← hos, settle_settle])) h₂
        rw [← hall] at htell
        exact .cons (.append htell)

/-- Each rank tells so if the operands do: by induction on the rank. -/
theorem tells_ranked (hstep : p.Tells os step) (hsound : Sound step (Derives .unary))
    (hos : settle os = os) (hlevel : os.length ≤ p.limit) (hx : x.rank = k) :
    p.Tells os (p.ranked step k) := by
  induction k generalizing x with
  | zero => exact hstep
  | succ k ih =>
    obtain ⟨ops, y, hc⟩ := x.exists_chain? (by omega)
    obtain ⟨hrank, hy, -⟩ := Phrase.rank_of_chain? hc
    have hyk : y.rank = k := by omega
    have hysound : Sound (p.ranked step k) (Derives y) := p.sound_ranked hsound hyk hy
    intro before ts n q hbefore h
    rcases bind_eq_error h with hl | ⟨⟨l, rest⟩, hl, h₁⟩
    · exact ih hyk _ _ _ _ hbefore hl
    · obtain ⟨us, rfl, hus⟩ := hysound _ _ _ hl
      obtain ⟨os', hread, hos'⟩ := hus.after_eq hbefore
      have hfirst : Derives x (us.map (·.val)) l := by simpa using Derives.chain hc hus .done
      rw [← hx] at h₁
      exact .append
        (tells_extend hc (ih hyk) hysound hlevel p.size hfirst hread (hos'.trans hos) h₁)

/-- So a whole expression does. -/
theorem tells_expression (hstep : p.Tells os step) (hsound : Sound step (Derives .unary))
    (hos : settle os = os) (hlevel : os.length ≤ p.limit) : p.Tells os (p.expression step) :=
  @tells_ranked p step _ os .or hstep hsound hos hlevel rfl

/-! ## Arguments -/

/-- The arguments behind the first tell where they cross the limit. -/
theorem tells_moreArguments (hstep : p.Tells (.parenthesis :: os) step)
    (hsound : Sound step (Derives .or)) (m : Nat) (hbefore : after before = ⟨false, os'⟩)
    (hos : settle os' = .parenthesis :: os)
    (h : p.moreArguments step m ts = .error (.nestingTooDeep n q)) : p.Crosses before ts n q := by
  -- what closes the call crosses no limit, so the fault is that of an argument
  have hclose : ∀ ts, (do
      let ts ← p.expect .rightParen .commaOrClosingParen ts
      .ok ([], ts)) ≠ (Except.error (.nestingTooDeep n q) : Except Fault (List Expr × Input)) := by
    intro ts h
    rcases bind_eq_error h with h | ⟨_, -, h⟩
    · exact expect_ne_nestingTooDeep h
    · cases h
  induction m generalizing ts before os' with
  | zero => exact absurd h (hclose _)
  | succ m ih =>
    unfold moreArguments at h
    split at h
    next m' place us hm =>
      obtain rfl := Nat.succ.inj hm
      have hnext : after (before ++ [.symbol .comma]) = ⟨true, .parenthesis :: os⟩ := by
        rw [after_concat hbefore, next_comma, hos]
      rcases bind_eq_error h with he | ⟨⟨e, rest⟩, he, h₁⟩
      · exact .cons (hstep _ _ _ _ hnext he)
      obtain ⟨vs, rfl, hvs⟩ := hsound _ _ _ he
      -- behind the argument as many levels are open as behind the comma
      obtain ⟨os'', hread, hos''⟩ := hvs.after_eq hnext
      rcases bind_eq_error h₁ with hes | ⟨_, -, h₂⟩
      · exact .cons (.append (ih hread (hos''.trans settle_parenthesis) hes))
      · cases h₂
    next => exact absurd h (hclose _)

/-- So do all arguments. -/
theorem tells_arguments (hstep : p.Tells (.parenthesis :: os) step)
    (hsound : Sound step (Derives .or)) : p.Tells (.parenthesis :: os) (p.arguments step) := by
  intro before ts n q hbefore h
  unfold arguments at h
  split at h
  next => cases h
  next =>
    rcases bind_eq_error h with he | ⟨⟨e, rest⟩, he, h₁⟩
    · exact hstep _ _ _ _ hbefore he
    obtain ⟨us, rfl, hus⟩ := hsound _ _ _ he
    obtain ⟨os', hread, hos'⟩ := hus.after_eq hbefore
    rcases bind_eq_error h₁ with hes | ⟨_, -, h₂⟩
    · exact .append
        (tells_moreArguments hstep hsound p.size hread (hos'.trans settle_parenthesis) hes)
    · cases h₂

/-! ## Operands -/

/-- One level further down, where these are open: a step is left unless they are
one too many, and it tells where it crosses the limit. -/
structure TellsInner (p : Parser) (os : List Opener) (inner : Option (Parse α)) : Prop where
  full : inner = none → os.length = p.limit + 1
  left : ∀ step, inner = some step → os.length ≤ p.limit ∧ p.Tells os step

/-- A nested step that tells of the limit lets what is made of it do so. -/
theorem TellsInner.map {f : Parse Expr → Parse α} (h : p.TellsInner os inner)
    (hf : ∀ step, inner = some step → os.length ≤ p.limit → p.Tells os step →
      p.Tells os (f step)) :
    p.TellsInner os (inner.map f) := by
  constructor
  · intro hnone
    exact h.full (Option.map_eq_none_iff.1 hnone)
  · intro g hg
    obtain ⟨step, hstep, rfl⟩ := Option.map_eq_some_iff.1 hg
    obtain ⟨hlevel, htells⟩ := h.left step hstep
    exact ⟨hlevel, hf step hstep hlevel htells⟩

/-- **Where no level is left, the lexeme before has opened one too many.** -/
theorem crosses_of_nested {inner : Option (Parse α)} {t : Lexeme} (hinner : p.TellsInner os inner)
    (hopens : (after before).Opens t) (hbefore : after (before ++ [t]) = ⟨true, os⟩)
    (h : p.nested inner ts = .error (.nestingTooDeep n q)) :
    p.Crosses (before ++ [t]) ts n q := by
  cases inner with
  | none =>
    obtain ⟨rfl, rfl⟩ := Fault.nestingTooDeep.inj (Except.error.inj h)
    refine ⟨rfl, [], ts, rfl, rfl, ?_⟩
    rw [List.map_nil, List.append_nil]
    exact .opened hopens (by rw [hbefore, level, hinner.full rfl])
  | some step => exact (hinner.left step rfl).2 _ _ _ _ hbefore h

/-- An operator before its operand crosses the limit at itself or in the operand. -/
theorem tells_prefixed (hinner : p.TellsInner (.operator :: os) inner)
    (hsound : ∀ step, inner = some step → Sound step (Derives .unary))
    (hlevel : os.length ≤ p.limit) (op : UnaryOp) (place : Nat)
    (hbefore : after before = ⟨true, os⟩)
    (h : p.prefixed inner op place ts = .error (.nestingTooDeep n q)) :
    p.Crosses before (⟨.symbol op.symbol, place⟩ :: ts) n q := by
  have hopens : (after before).Opens (.symbol op.symbol) := .inr ⟨by rw [hbefore], op, rfl⟩
  have hnext : after (before ++ [.symbol op.symbol]) = ⟨true, .operator :: os⟩ := by
    rw [after_concat hbefore, next_unaryOp]
  rcases bind_eq_error h with hx | ⟨⟨x, rest⟩, hx, h₁⟩
  · exact .cons (crosses_of_nested hinner hopens hnext hx)
  obtain ⟨step, hstep, hx⟩ := p.eq_some_of_nested hx
  obtain ⟨us, rfl, hus⟩ := hsound step hstep _ _ _ hx
  rcases bind_eq_error h₁ with he | ⟨_, -, h₂⟩
  · have hlevel' : (after before).level ≤ p.limit := by rwa [hbefore]
    refine crosses_of_bounded (t := ⟨.symbol op.symbol, place⟩) he hlevel' List.nil_suffix ?_
      (.unary hus)
    exact ⟨rest.map (·.val), by simp⟩
  · cases h₂

/-- An expression in parentheses crosses it behind the opening one or inside. -/
theorem tells_parenthesised (hinner : p.TellsInner (.parenthesis :: os) inner)
    (hsound : ∀ step, inner = some step → Sound step (Derives .unary)) (place : Nat)
    (hbefore : after before = ⟨true, os⟩)
    (h : p.parenthesised inner ts = .error (.nestingTooDeep n q)) :
    p.Crosses before (⟨.symbol .leftParen, place⟩ :: ts) n q := by
  have hnext : after (before ++ [.symbol .leftParen]) = ⟨true, .parenthesis :: os⟩ :=
    after_concat hbefore
  have hexpr := hinner.map (f := p.expression) fun step hstep hlevel htells =>
    tells_expression htells (hsound step hstep) settle_parenthesis hlevel
  rcases bind_eq_error h with he | ⟨_, -, h₁⟩
  · exact .cons (crosses_of_nested hexpr (.inl rfl) hnext he)
  · rcases bind_eq_error h₁ with hclose | ⟨_, -, h₂⟩
    · exact absurd hclose expect_ne_nestingTooDeep
    · cases h₂

/-- A call crosses it at its name, behind the parenthesis or in an argument. -/
theorem tells_called (hinner : p.TellsInner (.parenthesis :: os) inner)
    (hsound : ∀ step, inner = some step → Sound step (Derives .unary))
    (hlevel : os.length ≤ p.limit) (name : String) (place place' : Nat)
    (hbefore : after before = ⟨true, os⟩)
    (h : p.called inner name place ts = .error (.nestingTooDeep n q)) :
    p.Crosses before (⟨.identifier name, place⟩ :: ⟨.symbol .leftParen, place'⟩ :: ts) n q := by
  have hname : after (before ++ [.identifier name]) = ⟨false, os⟩ := after_concat hbefore
  have hnext : after (before ++ [.identifier name] ++ [.symbol .leftParen]) =
      ⟨true, .parenthesis :: os⟩ := after_concat hname
  -- the fault is that of the level that the parenthesis opens, of an argument, or of the call
  have hargs := hinner.map (f := fun step => p.arguments (p.expression step))
    fun step hstep hlevel htells =>
      tells_arguments (tells_expression htells (hsound step hstep) settle_parenthesis hlevel)
        (p.sound_expression (hsound step hstep))
  rcases bind_eq_error h with hes | ⟨⟨es, rest⟩, hes, h₁⟩
  · exact .cons (.cons (crosses_of_nested hargs (.inl rfl) hnext hes))
  obtain ⟨f, hf, hes⟩ := p.eq_some_of_nested hes
  obtain ⟨step, hstep, rfl⟩ := Option.map_eq_some_iff.1 hf
  obtain ⟨us, rfl, ws, hws, hderives⟩ :=
    p.sound_arguments (p.sound_expression (hsound step hstep)) _ _ _ hes
  rcases bind_eq_error h₁ with he | ⟨_, -, h₂⟩
  · have hlevel' : (after before).level ≤ p.limit := by rwa [hbefore]
    refine crosses_of_bounded (t := ⟨.identifier name, place⟩) he hlevel' List.nil_suffix ?_
      (.call hderives)
    exact ⟨rest.map (·.val), by simp [hws]⟩
  · cases h₂

/-- **An operand tells where it crosses the limit** if those that are nested in it do. -/
theorem tells_operand (hinner : ∀ o, p.TellsInner (o :: os) inner)
    (hsound : ∀ step, inner = some step → Sound step (Derives .unary))
    (hlevel : os.length ≤ p.limit) : p.Tells os (p.operand inner) := by
  intro before ts n q hbefore h
  unfold operand at h
  split at h
  next => cases h
  next s place us =>
    split at h
    next op hop =>
      obtain rfl := UnaryOp.ofSymbol?_eq_some_iff.1 hop
      exact tells_prefixed (hinner .operator) hsound hlevel op place hbefore h
    next =>
      split at h
      next hs =>
        rw [hs]
        exact tells_parenthesised (hinner .parenthesis) hsound place hbefore h
      next => cases h
  next name place place' us =>
    exact tells_called (hinner .parenthesis) hsound hlevel name place place' hbefore h
  next => cases h
  next => cases h
  next => split at h <;> cases h
  next => cases h

/-- **An operand tells where it crosses the limit**, where as many levels are open
as are not left. -/
theorem tells_unary (m : Nat) (h : os.length + m = p.limit) : p.Tells os (p.unary m) := by
  induction m generalizing os with
  | zero =>
    have hinner : ∀ o, p.TellsInner (o :: os) (none : Option (Parse Expr)) := fun o =>
      ⟨fun _ => by rw [List.length_cons]; omega, nofun⟩
    exact tells_operand hinner nofun (by omega)
  | succ m ih =>
    have hinner : ∀ o, p.TellsInner (o :: os) (some (p.unary m)) := by
      refine fun o => ⟨nofun, fun step hstep => ?_⟩
      obtain rfl := Option.some.inj hstep
      have hlength : (o :: os).length + m = p.limit := by rw [List.length_cons]; omega
      exact ⟨by omega, ih hlength⟩
    exact tells_operand hinner (fun step hstep => Option.some.inj hstep ▸ p.sound_unary m)
      (by omega)

/-- **A parse that crosses the limit tells where.** -/
theorem crosses_of_whole (h : p.whole ts = .error (.nestingTooDeep n q)) :
    p.Crosses [] ts n q := by
  have hexpr : p.Tells [] (p.expression (p.unary p.limit)) :=
    tells_expression (tells_unary p.limit (Nat.zero_add _)) (p.sound_unary p.limit) rfl
      (Nat.zero_le _)
  rcases bind_eq_error h with he | ⟨⟨e, rest⟩, -, h₁⟩
  · exact hexpr _ _ _ _ rfl he
  · cases rest <;> cases h₁

end Parser

/-! ## Places in a source -/

namespace Stream

/-- The lexemes that start before an offset. -/
def before (s : Stream) (q : Nat) : List Lexeme :=
  (s.lexemes.filter (·.offset < q)).map (·.val)

/-- The lexemes that start at an offset or behind it. -/
def behind (s : Stream) (q : Nat) : List Lexeme :=
  (s.lexemes.filter (q ≤ ·.offset)).map (·.val)

/-- At the offset a construct starts: an operator, a parenthesis that opens, or
the name of a call. -/
def ConstructAt (s : Stream) (q : Nat) : Prop :=
  (∃ l ∈ s.lexemes, l.offset = q) ∧ StartsConstruct (s.behind q)

/-- **The offset of a lexeme, or of the end, cuts the lexemes in two.** -/
theorem before_behind_of_append {source : String} {s : Stream} {us rest : Input} {q : Nat}
    (hs : ofSource source = .ok s) (hsplit : s.lexemes = us ++ rest)
    (hq : q = (rest.head?.map (·.offset)).getD s.stop) :
    s.before q = us.map (·.val) ∧ s.behind q = rest.map (·.val) := by
  have hpairwise := Cursor.pairwise_offset hs
  rw [toTokens, hsplit, List.map_append, List.append_assoc, List.pairwise_append] at hpairwise
  obtain ⟨-, hrest, hus⟩ := hpairwise
  -- offsets grow strictly, so `q` is above those on the left and not above those on the right
  have hlow : ∀ l ∈ us, l.offset < q := by
    intro l hl
    cases rest with
    | nil => exact hq ▸ hus _ (List.mem_map_of_mem hl) _ List.mem_cons_self
    | cons t rest => exact hq ▸ hus _ (List.mem_map_of_mem hl) _ List.mem_cons_self
  have hhigh : ∀ l ∈ rest, q ≤ l.offset := by
    intro l hl
    cases rest with
    | nil => cases hl
    | cons t rest =>
      rcases List.mem_cons.1 hl with rfl | hl
      · exact Nat.le_of_eq hq
      · rw [List.map_cons, List.cons_append, List.pairwise_cons] at hrest
        have hlt := hrest.1 _ (List.mem_append_left _ (List.mem_map_of_mem hl))
        exact Nat.le_of_lt (hq ▸ hlt)
  constructor
  · have hnone : ∀ l ∈ rest, ¬ decide (l.offset < q) = true := fun l hl => by
      simpa using hhigh l hl
    rw [before, hsplit, List.filter_append, List.filter_eq_self.2 fun l hl => by
      simpa using hlow l hl, List.filter_eq_nil_iff.2 hnone, List.append_nil]
  · have hnone : ∀ l ∈ us, ¬ decide (q ≤ l.offset) = true := fun l hl => by
      simpa using hlow l hl
    rw [behind, hsplit, List.filter_append, List.filter_eq_nil_iff.2 hnone,
      List.filter_eq_self.2 fun l hl => by simpa using hhigh l hl, List.nil_append]

end Stream

namespace Expr

/-- **The place of the fault of the limit.** The fault names the limit and the
offset of a token. If no more levels are open before this token than the limit
allows, then a construct starts there: the root of a tree that is too deep, which
the lexemes around the place spell. If more levels are open, then it is one more,
and the lexeme before has opened it; the place is that of whatever follows. -/
theorem place_of_nestingTooDeep (o : Options) (source : String) {n q : Nat}
    (h : (parse o source).result = .error (.nestingTooDeep n q)) :
    n = o.maxDepth ∧ ∃ s, Stream.ofSource source = .ok s ∧ (∃ t ∈ s.toTokens, t.offset = q) ∧
      ((after (s.before q)).level ≤ n →
        s.ConstructAt q ∧
          ∃ us vs e, us <:+ s.before q ∧ vs <+: s.behind q ∧ Rooted us vs e ∧ n < e.depth) ∧
      (n < (after (s.before q)).level →
        (after (s.before q)).level = n + 1 ∧
          ∃ us t, s.before q = us ++ [t] ∧ (after us).Opens t) := by
  have hparse : Stream.ofSource source >>= ofStream o.maxDepth = .error (.nestingTooDeep n q) := h
  rcases bind_eq_error hparse with hlexical | ⟨s, hs, hfault⟩
  · cases Stream.stage_of_ofSource hlexical
  obtain ⟨rfl, us, rest, hsplit, hq, hcrossed⟩ := Parser.crosses_of_whole hfault
  have hoffset : q = (rest.head?.map (·.offset)).getD s.stop := by
    rw [hq]
    cases rest <;> rfl
  obtain ⟨hbefore, hbehind⟩ := Stream.before_behind_of_append hs hsplit hoffset
  have hsuffix : rest <:+ s.lexemes := ⟨us, hsplit.symm⟩
  obtain ⟨t, ht, -, htoken⟩ := Stream.exists_token_of_suffix hsuffix
  rw [List.nil_append, ← hbefore, ← hbehind] at hcrossed
  -- a tree that is too deep is rooted at the place, or else one level too many was opened before it
  refine ⟨rfl, s, hs, ⟨t, ht, htoken.trans hoffset.symm⟩, fun hlevel => ?_, fun hlevel => ?_⟩
  · obtain ⟨us', vs, e, hus, ⟨ws, hvs⟩, hroot, hdepth⟩ := hcrossed.exists_rooted hlevel
    have hstarts : StartsConstruct (s.behind q) := hvs ▸ hroot.startsConstruct
    refine ⟨⟨?_, hstarts⟩, us', vs, e, hus, ⟨ws, hvs⟩, hroot, hdepth⟩
    cases rest with
    | nil =>
      rw [hbehind] at hstarts
      cases hstarts
    | cons l rest => exact ⟨l, hsplit ▸ List.mem_append_right us List.mem_cons_self, hoffset.symm⟩
  · exact hcrossed.exists_opens hlevel

/-- The sum is within four levels, but not the comparison of it: its operator is at
fault. No parenthesis and no operator before an operand is open there. -/
theorem place_of_comparison_too_deep :
    (parse ⟨4, false⟩ "1 + 2 + 3 + 4 > 0").result = .error (.nestingTooDeep 4 14) ∧
      ∃ s, Stream.ofSource "1 + 2 + 3 + 4 > 0" = .ok s ∧ s.ConstructAt 14 := by
  have hfault : (parse ⟨4, false⟩ "1 + 2 + 3 + 4 > 0").result = .error (.nestingTooDeep 4 14) := rfl
  obtain ⟨-, s, hs, -, hdeep, -⟩ := place_of_nestingTooDeep ⟨4, false⟩ "1 + 2 + 3 + 4 > 0" hfault
  have hlevel : (after (s.before 14)).level = 0 := by
    obtain rfl := Except.ok.inj hs
    rfl
  exact ⟨hfault, s, hs, (hdeep (by omega)).1⟩

/-- But where a level is opened that may not be, no construct need start in the place
of the fault: in `((1))` the second parenthesis is one too many for a limit of one,
and the place is that of the integer. -/
theorem not_constructAt_operand :
    ¬ ∀ (o : Options) (source : String) (n q : Nat),
      (parse o source).result = .error (.nestingTooDeep n q) →
        ∃ s, Stream.ofSource source = .ok s ∧ s.ConstructAt q := by
  intro h
  obtain ⟨s, hs, -, hstarts⟩ := h ⟨1, false⟩ "((1))" 1 2 rfl
  have hbehind : s.behind 2 = [.integer "1", .symbol .rightParen, .symbol .rightParen] := by
    obtain rfl := Except.ok.inj hs
    rfl
  rw [hbehind] at hstarts
  cases hstarts

end Expr
end Enablement
