import Enablement.Proofs.Expr.Blame

/-!
# Parsing — what a larger limit changes

A larger limit changes nothing but the fault of the limit. A step of the
parser that gives any other result gives the same one where more levels are
left (`Persists`): levels are only ever counted down, and a tree that is not
too deep stays so. And under a limit of as many levels as there are tokens the
limit is no fault at all. So to tokens that spell an expression belongs one
number, from which on they are read and below which the limit is the fault
(`ofTokens_limit_threshold`).
-/

namespace Enablement

section

variable {α β : Type} {r r' : Except Fault α} {f f' : α → Except Fault β}

/-- The result `r` is the fault of a limit, or it is also the result `r'`. -/
def Persists (r r' : Except Fault α) : Prop :=
  (∃ limit place, r = .error (.nestingTooDeep limit place)) ∨ r' = r

namespace Persists

/-- A result persists as it is. -/
theorem refl (r : Except Fault α) : Persists r r := .inr rfl

/-- **Two steps in a row persist if each does.** -/
theorem bind (h : Persists r r') (hf : ∀ a, Persists (f a) (f' a)) :
    Persists (r >>= f) (r' >>= f') := by
  rcases h with ⟨limit, place, rfl⟩ | rfl
  · exact .inl ⟨limit, place, rfl⟩
  · cases r' with
    | error e => exact .inr rfl
    | ok a => exact hf a

end Persists

end

namespace Parser

/-- The same parser under another limit. -/
def withLimit (p : Parser) (limit : Nat) : Parser := { p with limit }

variable (p : Parser) {limit : Nat} {step step' : Parse Expr}
variable {inner inner' : Option (Parse Expr)} {α : Type}

/-- A tree that is not too deep for a limit is not too deep for a larger one. -/
theorem persists_bounded (h : p.limit ≤ limit) (place : Nat) (e : Expr) :
    Persists (p.bounded place e) ((p.withLimit limit).bounded place e) := by
  by_cases he : e.depth ≤ p.limit
  · exact .inr (by rw [bounded_of_depth_le _ (Nat.le_trans he h), bounded_of_depth_le _ he])
  · exact .inl ⟨p.limit, place, if_neg he⟩

/-! ## Chains -/

/-- A chain persists if its operands do. -/
theorem persists_extend (h : p.limit ≤ limit) (hstep : ∀ ts, Persists (step ts) (step' ts))
    (k n : Nat) (l : Expr) (ts : Input) :
    Persists (p.extend k step n l ts) ((p.withLimit limit).extend k step' n l ts) := by
  induction n generalizing l ts with
  | zero => exact .refl _
  | succ n ih =>
    rw [extend, extend]
    cases operatorAt k ts with
    | none => exact .refl _
    | some o =>
      obtain ⟨op, place, us⟩ := o
      refine (hstep us).bind fun a => ?_
      exact (p.persists_bounded h place _).bind fun e => ih e a.2

/-- And so does each rank: by induction on the rank. -/
theorem persists_ranked (h : p.limit ≤ limit) (hstep : ∀ ts, Persists (step ts) (step' ts))
    (k : Nat) (ts : Input) :
    Persists (p.ranked step k ts) ((p.withLimit limit).ranked step' k ts) := by
  induction k generalizing ts with
  | zero => exact hstep ts
  | succ k ih => exact (ih ts).bind fun a => p.persists_extend h ih (k + 1) p.size a.1 a.2

/-- A whole expression persists if its operands do. -/
theorem persists_expression (h : p.limit ≤ limit) (hstep : ∀ ts, Persists (step ts) (step' ts))
    (ts : Input) :
    Persists (p.expression step ts) ((p.withLimit limit).expression step' ts) :=
  p.persists_ranked h hstep Operator.topRank ts

/-! ## Arguments -/

/-- The arguments behind the first persist if each of them does. -/
theorem persists_moreArguments (hstep : ∀ ts, Persists (step ts) (step' ts)) (n : Nat)
    (ts : Input) :
    Persists (p.moreArguments step n ts) ((p.withLimit limit).moreArguments step' n ts) := by
  induction n generalizing ts with
  | zero => exact .refl _
  | succ n ih =>
    unfold moreArguments
    split
    next k place us hk =>
      obtain rfl := Nat.succ.inj hk
      exact (hstep us).bind fun a => (ih a.2).bind fun _ => .refl _
    next => exact .refl _

/-- And so do all arguments. -/
theorem persists_arguments (hstep : ∀ ts, Persists (step ts) (step' ts)) (ts : Input) :
    Persists (p.arguments step ts) ((p.withLimit limit).arguments step' ts) := by
  unfold arguments
  split
  next => exact .refl _
  next =>
    exact (hstep ts).bind fun a =>
      (p.persists_moreArguments hstep p.size a.2).bind fun _ => .refl _

/-! ## Operands -/

/-- Where the one parser has a level left, so has the other, and its step there
persists. -/
def PersistsInner {α : Type} (inner inner' : Option (Parse α)) : Prop :=
  ∀ step, inner = some step → ∃ step', inner' = some step' ∧ ∀ ts, Persists (step ts) (step' ts)

/-- Where no level is left, the fault is that of the limit. -/
theorem persistsInner_none {inner' : Option (Parse α)} : PersistsInner none inner' :=
  fun _ h => by cases h

/-- What is made of a nested step persists if the step does. -/
theorem PersistsInner.map {f f' : Parse Expr → Parse α} (h : PersistsInner inner inner')
    (hf : ∀ step step', (∀ ts, Persists (step ts) (step' ts)) →
      ∀ ts, Persists (f step ts) (f' step' ts)) :
    PersistsInner (inner.map f) (inner'.map f') := by
  intro g hg
  obtain ⟨step, rfl, rfl⟩ := Option.map_eq_some_iff.1 hg
  obtain ⟨step', rfl, hstep⟩ := h step rfl
  exact ⟨f' step', rfl, hf step step' hstep⟩

/-- What is nested persists, since more levels are left under a larger limit. -/
theorem persists_nested {inner inner' : Option (Parse α)} (h : PersistsInner inner inner')
    (ts : Input) : Persists (p.nested inner ts) ((p.withLimit limit).nested inner' ts) := by
  cases inner with
  | none => exact .inl ⟨p.limit, p.offset ts, rfl⟩
  | some step =>
    obtain ⟨step', rfl, hstep⟩ := h step rfl
    exact hstep ts

/-- **An operand persists** if those that are nested in it do. -/
theorem persists_operand (h : p.limit ≤ limit) (hinner : PersistsInner inner inner')
    (ts : Input) :
    Persists (p.operand inner ts) ((p.withLimit limit).operand inner' ts) := by
  unfold operand
  split
  next => exact .refl _
  next s place us =>
    split
    next op _ =>
      refine (p.persists_nested hinner us).bind fun a => ?_
      exact (p.persists_bounded h place _).bind fun _ => .refl _
    next =>
      split
      next =>
        have hexpr := hinner.map fun _ _ => p.persists_expression h
        exact (p.persists_nested hexpr us).bind fun _ => .refl _
      next => exact .refl _
  next name place _ us =>
    refine (p.persists_nested (hinner.map fun _ _ hstep =>
      p.persists_arguments (p.persists_expression h hstep)) us).bind fun a => ?_
    exact (p.persists_bounded h place _).bind fun _ => .refl _
  all_goals exact .refl _

/-- **More levels change nothing** but the fault of having too few. -/
theorem persists_unary (h : p.limit ≤ limit) {n m : Nat} (hnm : n ≤ m) (ts : Input) :
    Persists (p.unary n ts) ((p.withLimit limit).unary m ts) := by
  induction n generalizing m ts with
  | zero =>
    cases m with
    | zero | succ m => exact p.persists_operand h persistsInner_none ts
  | succ n ih =>
    obtain ⟨m, rfl⟩ : ∃ j, m = j + 1 := ⟨m - 1, by omega⟩
    refine p.persists_operand h (fun step hstep => ⟨_, rfl, fun us => ?_⟩) ts
    obtain rfl := Option.some.inj hstep
    exact ih (by omega) us

/-- So the whole input is read with the same result, or the fault is that of the limit. -/
theorem persists_whole (h : p.limit ≤ limit) (ts : Input) :
    Persists (p.whole ts) ((p.withLimit limit).whole ts) :=
  (p.persists_expression h (p.persists_unary h h) ts).bind fun _ => .refl _

end Parser

namespace Expr

/-- **A larger limit gives the same result** wherever the limit is not the fault. -/
theorem ofStream_eq_of_le {limit limit' : Nat} {s : Stream} (h : limit ≤ limit')
    (hs : ∀ n place, ofStream limit s ≠ .error (.nestingTooDeep n place)) :
    ofStream limit' s = ofStream limit s := by
  let p : Parser := ⟨limit, s.stop, s.lexemes.length⟩
  have hwhole : Persists (p.whole s.lexemes) ((p.withLimit limit').whole s.lexemes) :=
    p.persists_whole h s.lexemes
  rcases hwhole with ⟨n, place, hfault⟩ | hsame
  · exact absurd hfault (hs n place)
  · exact hsame

end Expr

/-- A stream has no more lexemes than there are tokens. -/
theorem Stream.length_ofTokensFrom_le (stop : Nat) (ts : List Token) :
    (ofTokensFrom stop ts).lexemes.length ≤ ts.length := by
  induction ts generalizing stop with
  | nil => exact Nat.le_refl _
  | cons t ts ih =>
    obtain ⟨_ | l, q⟩ := t
    · exact Nat.zero_le _
    · exact Nat.succ_le_succ (ih (q + 1))

/-- **The limit is a threshold.** Under a limit that is not below the number of
tokens it is never the fault. What is read under a limit, or refused for
another reason, is so under every larger one. And tokens that are read under a
limit of their number have a threshold, not above that number and not below
the depth of a tree that is no leaf: from it on they are read, and below it the
limit is the fault. -/
theorem ofTokens_limit_threshold (ts : List Token) :
    (∀ limit, ts.length ≤ limit → ∀ n place,
        Expr.ofTokens limit ts ≠ .error (.nestingTooDeep n place)) ∧
      (∀ limit limit', limit ≤ limit' →
        (∀ n place, Expr.ofTokens limit ts ≠ .error (.nestingTooDeep n place)) →
        Expr.ofTokens limit' ts = Expr.ofTokens limit ts) ∧
      ∀ e, Expr.ofTokens ts.length ts = .ok e →
        ∃ threshold, threshold ≤ ts.length ∧
          ((∃ v, e = .const v) ∨ (∃ name, e = .param name) ∨ e.depth ≤ threshold) ∧
          (∀ limit, threshold ≤ limit → Expr.ofTokens limit ts = .ok e) ∧
          ∀ limit, limit < threshold →
            ∃ place, Expr.ofTokens limit ts = .error (.nestingTooDeep limit place) := by
  have hlen : (Stream.ofTokens ts).lexemes.length ≤ ts.length :=
    Stream.length_ofTokensFrom_le 0 ts
  refine ⟨fun limit h => Expr.ne_nestingTooDeep_of_ofStream (Nat.le_trans hlen h),
    fun limit limit' h hs => Expr.ofStream_eq_of_le h hs, fun e he => ?_⟩
  have hderives := (Expr.ofStream_eq_ok_iff hlen).1 he
  obtain ⟨c, hc, hnests⟩ := hderives.exists_nests
  have hdepth := hderives.depth_le_length
  have hbounded := e.boundedDepth_le_depth
  rw [List.length_map] at hc hdepth
  -- the tokens nest in `c` levels and the tree has bounded nodes: the limit must allow for both
  refine ⟨max c e.boundedDepth, by omega, ?_, fun limit h => ?_, fun limit h => ?_⟩
  · cases e with
    | const v => exact .inl ⟨v, rfl⟩
    | param name => exact .inr (.inl ⟨name, rfl⟩)
    | unary | binary | logical | call => exact .inr (.inr (Nat.le_max_right _ _))
  · exact (hnests.settled_ofStream limit).ok h
  · exact (hnests.settled_ofStream limit).fault (Nat.not_le.2 h)

/-- A closing parenthesis too many is the fault under every limit, even under
zero. And the tokens of `-(1)` have a threshold of two at least, from which on
they are read. -/
theorem limit_threshold_negated_parentheses :
    (∀ limit, Expr.ofTokens limit [⟨some (.integer "1"), 0⟩, ⟨some (.symbol .rightParen), 1⟩] =
        .error (.unexpectedToken (.symbol .rightParen) .operatorOrEnd 1)) ∧
      ∃ threshold, 2 ≤ threshold ∧ threshold ≤ 4 ∧ ∀ limit, threshold ≤ limit →
        Expr.ofTokens limit
          [⟨some (.symbol .minus), 0⟩, ⟨some (.symbol .leftParen), 1⟩, ⟨some (.integer "1"), 2⟩,
            ⟨some (.symbol .rightParen), 3⟩] = .ok (.unary .negate (.const (.integer 1))) := by
  constructor
  · intro limit
    exact (ofTokens_limit_threshold _).2.1 0 limit (Nat.zero_le _) fun _ _ h => by cases h
  · obtain ⟨threshold, hle, hdepth, hread, -⟩ :=
      (ofTokens_limit_threshold
        [⟨some (.symbol .minus), 0⟩, ⟨some (.symbol .leftParen), 1⟩, ⟨some (.integer "1"), 2⟩,
          ⟨some (.symbol .rightParen), 3⟩]).2.2 (.unary .negate (.const (.integer 1))) rfl
    refine ⟨threshold, ?_, hle, hread⟩
    rcases hdepth with ⟨v, hv⟩ | ⟨name, hname⟩ | hdepth
    · cases hv
    · cases hname
    · exact hdepth

end Enablement
