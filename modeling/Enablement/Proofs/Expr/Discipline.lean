import Enablement.Proofs.Expr.Tracking

/-!
# Parsing — where the cursor goes

A descent over any token list comes to an outcome, and on its way the cursor
stays at or before the first end of input (`run_discipline`). That is read off
what the parser does (`answers_run`), since up to there the descent finds the
tokens of the parser's stream. What stands behind is never looked at, be it
further tokens (`parse_append`), the last token taken for all that follow, or
nothing.

How large the stack is does not matter where it suffices: a step that has an
outcome keeps it where the stack is larger or more tokens are found
(`Extends`). And a call is made where there is no outcome without it
(`Makes`).
-/

namespace Enablement
namespace Descent

/-! ## A larger stack -/

section

variable {α β : Type} {x y : Step α}

/-- Where the one step has an outcome, the other has the same. -/
def Extends (x y : Step α) : Prop := ∀ st o, x st = some o → y st = some o

namespace Extends

/-- A step extends itself. -/
theorem refl (x : Step α) : Extends x x := fun _ _ h => h

/-- **Two steps in a row extend two others if each does.** -/
theorem bind {f g : α → Step β} (h : Extends x y) (hf : ∀ a, Extends (f a) (g a)) :
    Extends (x >>= f) (y >>= g) := by
  intro st o ho
  cases hx : x st with
  | none =>
    rw [bind_of_none hx] at ho
    cases ho
  | some r =>
    obtain ⟨e | a, st'⟩ := r
    · rw [bind_of_error hx] at ho
      rw [bind_of_error (h st _ hx)]
      exact ho
    · rw [bind_of_ok hx] at ho
      rw [bind_of_ok (h st _ hx)]
      exact hf a st' o ho

/-- A choice extends another if both of its branches do. -/
theorem ite {x' y' : Step α} {p : Prop} [Decidable p] (h : Extends x y) (h' : Extends x' y') :
    Extends (if p then x else x') (if p then y else y') := by
  by_cases hp : p
  · rw [if_pos hp, if_pos hp]
    exact h
  · rw [if_neg hp, if_neg hp]
    exact h'

/-- What has an outcome in any case has the same one where faults are caught. -/
theorem lift (h : Extends x y) : Extends (ExceptT.lift x.run) (ExceptT.lift y.run) := by
  intro st o ho
  obtain ⟨r, hr, heq⟩ := Option.bind_eq_some_iff.1 ho
  exact Option.bind_eq_some_iff.2 ⟨r, h st r hr, heq⟩

end Extends

end

section

variable {d : Descent} {look : Nat → Option Token} {α : Type}
variable (hlook : ∀ i t, d.look i = some t → look i = some t)

include hlook

/-- Where more tokens are found, what is seen stays the same. -/
theorem extends_peek : Extends d.peek (peek { d with look }) := by
  refine (Extends.refl get).bind fun st => ?_
  cases hst : d.look st.cursor with
  | none => exact fun _ _ h => by cases h
  | some t =>
    simp only [hlook _ t hst]
    exact .refl _

/-- And so does what is passed. -/
theorem extends_advance : Extends d.advance (advance { d with look }) :=
  (extends_peek hlook).bind fun _ => .refl _

/-- Also where it is not asked for. -/
theorem extends_discard_advance :
    Extends (discard d.advance) (discard (advance { d with look })) :=
  (extends_advance hlook).bind fun _ => .refl _

/-- The fault of a token that is out of place speaks of the same token. -/
theorem extends_unexpected (e : Expected) :
    Extends (d.unexpected e : Step α) (unexpected { d with look } e) :=
  (extends_peek hlook).bind fun _ => .refl _

/-- A symbol that is asked for is found in the same place. -/
theorem extends_expect (s : Symbol) (e : Expected) :
    Extends (d.expect s e) (expect { d with look } s e) :=
  (extends_peek hlook).bind fun _ =>
    .ite (extends_discard_advance hlook) (extends_unexpected hlook e)

/-- A nested step keeps the outcome that it has. -/
theorem extends_nested {x y : Step α} (h : Extends x y) :
    Extends (d.nested x) (nested { d with look } y) := by
  refine (Extends.refl _).bind fun _ => (Extends.refl get).bind fun st => .ite ?_ ?_
  · exact (extends_peek hlook).bind fun _ => .refl _
  · exact h.lift.bind fun _ => .refl _

variable {operand operand' : Step Expr} {expression expression' : Step Expr}
variable {primary primary' : Step Expr} {arguments arguments' : Step (List Expr)}
variable {more more' : List Expr → Step (List Expr)}

/-- So does an operator before its operand. -/
theorem extends_prefixed (hoperand : Extends operand operand')
    (hprimary : Extends primary primary') :
    Extends (d.prefixed operand primary) (prefixed { d with look } operand' primary') := by
  refine (extends_peek hlook).bind fun t => ?_
  cases unaryOp? t with
  | none => exact hprimary
  | some op =>
    exact (extends_advance hlook).bind fun _ =>
      (extends_nested hlook hoperand).bind fun _ => .refl _

/-- A chain keeps its outcome if its operands and its rest do. -/
theorem extends_rest {again again' : Expr → Step Expr} (k : Nat) (left : Expr)
    (hoperand : Extends operand operand') (hagain : ∀ e, Extends (again e) (again' e)) :
    Extends (d.rest k left operand again) (rest { d with look } k left operand' again') := by
  refine (extends_peek hlook).bind fun t => ?_
  cases operator? k t with
  | none => exact .refl _
  | some op =>
    exact (extends_advance hlook).bind fun _ => hoperand.bind fun _ => (Extends.refl _).bind hagain

/-- A name keeps its outcome if the arguments behind it do. -/
theorem extends_named (name : String) (place : Nat) (harguments : Extends arguments arguments') :
    Extends (d.named name place arguments) (named { d with look } name place arguments') :=
  (extends_peek hlook).bind fun _ =>
    .ite ((extends_discard_advance hlook).bind fun _ =>
      (extends_nested hlook harguments).bind fun _ => .refl _) (.refl _)

/-- What is no operator keeps its outcome if what is nested in it does. -/
theorem extends_primary (hexpression : Extends expression expression')
    (harguments : Extends arguments arguments') :
    Extends (d.primary expression arguments)
      (Descent.primary { d with look } expression' arguments') := by
  refine (extends_peek hlook).bind fun t => ?_
  have hunexpected := extends_unexpected (α := Expr) hlook .operand
  have hdiscard (e : Expr) : Extends (discard d.advance >>= fun _ => pure e)
      (discard (advance { d with look }) >>= fun _ => pure e) :=
    (extends_discard_advance hlook).bind fun _ => .refl _
  -- the same token is looked at in both, and both take the same branch
  obtain ⟨_ | l, q⟩ := t
  · exact hunexpected
  · cases l with
    | symbol y =>
      cases y with
      | leftParen =>
        exact (extends_discard_advance hlook).bind fun _ =>
          (extends_nested hlook hexpression).bind fun _ =>
            (extends_expect hlook _ _).bind fun _ => .refl _
      | _ => exact hunexpected
    | identifier name =>
      exact (extends_advance hlook).bind fun _ => extends_named hlook name _ harguments
    | boolean text => exact hdiscard _
    | integer text => exact (extends_advance hlook).bind fun _ => .refl _
    | string text => exact hdiscard _

/-- Arguments keep their outcome if each of them does. -/
theorem extends_arguments (hexpression : Extends expression expression')
    (hmore : ∀ args, Extends (more args) (more' args)) :
    Extends (d.arguments expression more)
      (Descent.arguments { d with look } expression' more') :=
  (extends_peek hlook).bind fun _ =>
    .ite ((extends_discard_advance hlook).bind fun _ => .refl _)
      (hexpression.bind fun e => hmore [e])

/-- And so do those behind the first. -/
theorem extends_moreArguments (args : List Expr) (hexpression : Extends expression expression')
    (hmore : ∀ args, Extends (more args) (more' args)) :
    Extends (d.moreArguments args expression more)
      (moreArguments { d with look } args expression' more') :=
  (extends_peek hlook).bind fun _ =>
    .ite ((extends_discard_advance hlook).bind fun _ =>
        hexpression.bind fun e => hmore (args ++ [e]))
      ((extends_expect hlook _ _).bind fun _ => .refl _)

/-- **What any call does keeps its outcome** if the calls that it makes do. -/
theorem extends_body {calls calls' : Calls} (h : ∀ c, Extends (calls c) (calls' c))
    (c : Production) : Extends (d.body calls c) (body { d with look } calls' c) := by
  cases c with
  | primary => exact extends_primary hlook (h _) (h _)
  | ranked k =>
    exact .ite (extends_prefixed hlook (h _) (h _)) ((h _).bind fun left => h (.rest k left))
  | rest k left => exact extends_rest hlook _ left (h _) fun e => h (.rest k e)
  | arguments =>
    rw [body, body]
    exact extends_arguments hlook (h .expression) fun args => h (.moreArguments args)
  | moreArguments args =>
    rw [body, body]
    exact extends_moreArguments hlook args (h .expression) fun args => h (.moreArguments args)

/-- **A larger stack and more tokens change no outcome.** -/
theorem extends_run {n m : Nat} (hnm : n ≤ m) (c : Production) :
    Extends (d.run n c) (run { d with look } m c) := by
  induction n generalizing m c with
  | zero => exact fun _ _ h => by cases h
  | succ n ih =>
    obtain ⟨m, rfl⟩ : ∃ j, m = j + 1 := ⟨m - 1, by omega⟩
    exact extends_body hlook (ih (by omega)) c

end

/-! ## The tokens of a list -/

/-- The place of the first end of input, which is behind all tokens if there is none
among them. -/
def firstEnd (ts : List Token) : Nat := ts.findIdx fun t => t.kind = .endOfInput

/-- A stream has the lexemes in front of the first end of input. -/
theorem length_ofTokensFrom (stop : Nat) (ts : List Token) :
    (Stream.ofTokensFrom stop ts).lexemes.length = firstEnd ts := by
  induction ts generalizing stop with
  | nil => rfl
  | cons t ts ih =>
    obtain ⟨_ | l, q⟩ := t
    · rfl
    · have hl : decide (Token.kind ⟨some l, q⟩ = .endOfInput) = false :=
        decide_eq_false l.kind_ne_endOfInput
      rw [firstEnd, List.findIdx_cons, hl, cond_false, Stream.ofTokensFrom]
      simp only [List.length_cons, ih]
      rfl

/-- Behind the first token the end of input is added as behind the whole list. -/
theorem closed_cons (t : Token) {ts : List Token} (h : ts ≠ []) :
    closed (t :: ts) = t :: closed ts := by
  rw [closed, closed, List.getLast?_cons_of_ne_nil h, List.getLast?_eq_some_getLast h]
  simp only
  split <;> rfl

/-- The closed list starts with the tokens of the stream. -/
theorem exists_closed_eq (ts : List Token) :
    ∃ behind, closed ts = (Stream.ofTokens ts).toTokens ++ behind := by
  suffices h : ∀ stop, ts ≠ [] →
      ∃ behind, closed ts = (Stream.ofTokensFrom stop ts).toTokens ++ behind by
    by_cases hts : ts = []
    · exact ⟨[], by rw [hts]; rfl⟩
    · exact h 0 hts
  -- the empty list is closed at 0 and not one past the token before it, so it is set apart
  induction ts with
  | nil => exact fun _ h => absurd rfl h
  | cons t ts ih =>
    intro stop _
    obtain ⟨_ | l, q⟩ := t
    · by_cases hts : ts = []
      · exact ⟨[], by rw [hts]; rfl⟩
      · exact ⟨closed ts, closed_cons _ hts⟩
    · by_cases hts : ts = []
      · refine ⟨[], ?_⟩
        rw [hts]
        simp [closed, Stream.ofTokensFrom, Stream.toTokens, l.kind_ne_endOfInput]
      · obtain ⟨behind, hbehind⟩ := ih (q + 1) hts
        exact ⟨behind, by rw [closed_cons _ hts, hbehind]; rfl⟩

/-- Without a clamp, the tokens of the stream are found up to the first end. -/
theorem shows_unclamped (limit : Nat) (ts : List Token) :
    (unclamped limit ts).Shows (.ofTokens ts) := by
  obtain ⟨behind, hbehind⟩ := exists_closed_eq ts
  intro i hi
  show (closed ts)[i]? = _
  rw [hbehind, List.getElem?_append_left]
  rw [Stream.toTokens]
  simpa using Nat.lt_succ_of_le hi

/-- The last token taken for all that follow is nothing less. -/
theorem look_ofTokens {limit : Nat} {ts : List Token} (i : Nat) (t : Token)
    (h : (unclamped limit ts).look i = some t) : (ofTokens limit ts).look i = some t := by
  obtain ⟨hi, ht⟩ := List.getElem?_eq_some_iff.1 h
  show (closed ts)[min i ((closed ts).length - 1)]? = some t
  rw [Nat.min_eq_left (by omega)]
  exact h

/-- And with it they are the same. -/
theorem shows_ofTokens (limit : Nat) (ts : List Token) :
    (ofTokens limit ts).Shows (.ofTokens ts) := by
  intro i hi
  have hshow := shows_unclamped limit ts i hi
  rw [← hshow]
  have hlt : i < (Stream.ofTokens ts).toTokens.length := by
    rw [Stream.toTokens]
    simpa using Nat.lt_succ_of_le hi
  rw [List.getElem?_eq_getElem hlt] at hshow
  rw [hshow, look_ofTokens i _ hshow]

/-! ## The outcome of a production -/

/-- What a production takes at least if it has a result: a loop may find nothing to go
on with. -/
def Production.takes : Production → Nat
  | .rest .. => 0
  | _ => 1

/-- A step that tracks the parser has an outcome, and the cursor is where the parser
stops. -/
theorem Tracks.exists_eq {α : Type} {s : Stream} {lo n : Nat} {r : Except Fault (α × Input)}
    {o : Option (Except Fault α × State)} (h : Tracks s lo n r o) :
    ∃ r' st', o = some (r', st') ∧
      ∀ a, r' = .ok a → lo ≤ st'.cursor ∧ st'.cursor ≤ s.lexemes.length ∧ st'.depth = n := by
  cases h with
  | ok a hlo hle => exact ⟨_, _, rfl, fun _ _ => ⟨hlo, hle, rfl⟩⟩
  | error f st => exact ⟨_, _, rfl, fun _ h => by cases h⟩

variable {d : Descent} {s : Stream} {c c' c'' : Production} {st st' st'' : State}

/-- **A right outcome keeps the discipline**: a token is taken, the cursor does not
pass the end of input, and the counter is as it was. -/
theorem Answers.exists_eq {o : Option (Except Fault c.Result × State)} (h : d.Answers s c st o) :
    ∃ r st', o = some (r, st') ∧
      ∀ a, r = .ok a → st.cursor + c.takes ≤ st'.cursor ∧ st'.cursor ≤ s.lexemes.length ∧
        st'.depth = st.depth := by
  cases c with
  | primary | ranked | arguments => exact Tracks.exists_eq h
  | rest | moreArguments => exact Tracks.exists_eq (h _ (Nat.le_refl _))

/-! ## The calls of a production -/

/-- The same calls but for one, which has no outcome. -/
def Calls.without (calls : Calls) (c : Production) (st : State) : Calls := fun c' st' =>
  if c' = c ∧ st' = st then none else calls c' st'

/-- **A production makes a call** if it has no outcome without this one, however large
the stack is. -/
def Makes (d : Descent) (c : Production) (st : State) (c' : Production) (st' : State) : Prop :=
  ∀ n, d.body ((d.run n).without c' st') c st = none

/-- The calls that a production makes, and those that they make. -/
inductive Leads (d : Descent) (c : Production) (st : State) : Production → State → Prop
  /-- A call of the production itself. -/
  | call {c' : Production} {st' : State} : d.Makes c st c' st' → Leads d c st c' st'
  /-- A call of one of its calls. -/
  | onward {c' c'' : Production} {st' st'' : State} :
    Leads d c st c' st' → d.Makes c' st' c'' st'' → Leads d c st c'' st''

/-- **A call that is made is one that can be made**: without another one the outcome
is still right. -/
theorem Makes.later (hd : d.Shows s) (hst : st.cursor ≤ s.lexemes.length)
    (h : d.Makes c st c' st') : st'.cursor ≤ s.lexemes.length ∧ d.Later c st c' st' := by
  refine Classical.byContradiction fun hnot => ?_
  -- this stack is enough wherever the cursor stands, so all calls are right but the one cut off
  have hanswers : d.Answers s c st
      (d.body ((d.run (9 * s.lexemes.length + 9)).without c' st') c st) := by
    refine answers_body hd hst fun c'' st'' hle hlater => ?_
    rw [Calls.without, if_neg]
    · have := c''.level_le
      exact answers_run hd _ c'' st'' hle (by omega)
    · rintro ⟨rfl, rfl⟩
      exact hnot ⟨hle, hlater⟩
  obtain ⟨r, st'', ho, -⟩ := hanswers.exists_eq
  rw [h] at ho
  cases ho

/-- **Every call that comes of a production** takes place at or before the end of
input, and behind a token that was taken or more tightly. -/
theorem Leads.later (hd : d.Shows s) (hst : st.cursor ≤ s.lexemes.length)
    (h : d.Leads c st c' st') :
    st'.cursor ≤ s.lexemes.length ∧
      (st.cursor < st'.cursor ∨ st'.cursor = st.cursor ∧ c'.level < c.level) ∧
      st'.depth ≤ max st.depth d.limit := by
  induction h with
  | call hmakes =>
    obtain ⟨hle, hcursor, hdepth⟩ := hmakes.later hd hst
    exact ⟨hle, hcursor, by omega⟩
  | onward _ hmakes ih =>
    obtain ⟨hle, hcursor, hdepth⟩ := ih
    obtain ⟨hle', hcursor', hdepth'⟩ := hmakes.later hd hle
    exact ⟨hle', by omega, by omega⟩

/-- **Each production keeps to its tokens**, for every token list, every limit and
every state with the cursor at or before the first end of input. It comes to an outcome,
on a stack of nine calls for each token up to there, and to the same one where no token
is found behind the last one. A result leaves the cursor behind what the production
takes at least, not past the first end of input, and the counter as it was. And every
call on the way, made directly or by other calls, finds the cursor not past the first
end of input, and either behind a token that was taken or where it was and in a tighter
production, so never in the same production or in a further round of a loop; and the
counter not above the limit, unless it was. -/
theorem run_discipline (limit : Nat) (ts : List Token) (c : Production) (st : State)
    (hst : st.cursor ≤ firstEnd ts) :
    (∃ r st', (∀ n, 9 * (firstEnd ts - st.cursor) + c.level < n →
          (ofTokens limit ts).run n c st = some (r, st') ∧
          (unclamped limit ts).run n c st = some (r, st')) ∧
        ∀ a, r = .ok a → st.cursor + c.takes ≤ st'.cursor ∧ st'.cursor ≤ firstEnd ts ∧
          st'.depth = st.depth) ∧
      ∀ c' st', (ofTokens limit ts).Leads c st c' st' →
        st'.cursor ≤ firstEnd ts ∧
          (st.cursor < st'.cursor ∨ st'.cursor = st.cursor ∧ c'.level < c.level) ∧
          st'.depth ≤ max st.depth limit := by
  have hlen : (Stream.ofTokens ts).lexemes.length = firstEnd ts := length_ofTokensFrom 0 ts
  rw [← hlen] at hst ⊢
  have hrun (n : Nat) (hn : _ < n) := answers_run (shows_unclamped limit ts) n c st hst hn
  obtain ⟨r, st', ho, hok⟩ := (hrun _ (Nat.lt_succ_self _)).exists_eq
  refine ⟨⟨r, st', fun n hn => ?_, hok⟩, fun c' st' h => h.later (shows_ofTokens limit ts) hst⟩
  exact ⟨extends_run look_ofTokens hn c st _ ho, extends_run (fun _ _ h => h) hn c st _ ho⟩

/-- The tokens of `a + b`, behind whose end of input stands a parenthesis. On every
stack of 35 calls or more the sum is read, and the cursor stops at the end of input. The
loop behind `a` calls for an operand behind the operator, and no call makes a further
round where the loop began. -/
theorem run_discipline_sum :
    let ts : List Token := [⟨some (.identifier "a"), 0⟩, ⟨some (.symbol .plus), 1⟩,
      ⟨some (.identifier "b"), 2⟩, ⟨none, 3⟩, ⟨some (.symbol .rightParen), 4⟩]
    (∀ n, 34 < n → (ofTokens 8 ts).run n .expression ⟨0, 0⟩ =
        some (.ok (.binary .add (.param "a") (.param "b")), ⟨3, 0⟩)) ∧
      (ofTokens 8 ts).Leads (.rest 2 (.param "a")) ⟨1, 0⟩ (.ranked 1) ⟨2, 0⟩ ∧
      ∀ left st, (ofTokens 8 ts).Leads (.rest 2 (.param "a")) ⟨1, 0⟩ (.rest 2 left) st →
        1 < st.cursor ∧ st.cursor ≤ 3 ∧ st.depth ≤ 8 := by
  intro ts
  refine ⟨?_, .call fun _ => rfl, fun left st h => ?_⟩
  · obtain ⟨⟨r, st, hrun, -⟩, -⟩ := run_discipline 8 ts .expression ⟨0, 0⟩ (Nat.zero_le _)
    have hread : (ofTokens 8 ts).run 35 .expression ⟨0, 0⟩ =
        some (.ok (.binary .add (.param "a") (.param "b")), ⟨3, 0⟩) := rfl
    have hsame := (hrun 35 (by decide)).1
    rw [hread] at hsame
    cases hsame
    exact fun n hn => (hrun n hn).1
  · obtain ⟨hle, hcursor | ⟨-, hlevel⟩, hdepth⟩ :=
      (run_discipline 8 ts (.rest 2 (.param "a")) ⟨1, 0⟩ (by decide)).2 _ st h
    · exact ⟨hcursor, hle, hdepth⟩
    · exact absurd hlevel (Nat.lt_irrefl 0)

/-! ## What stands behind the first end of input -/

/-- **A descent reads what the parser of its stream reads.** -/
theorem whole_eq (hd : d.Shows s) {n : Nat} (hn : 9 * s.lexemes.length + 7 < n) :
    (d.whole n ⟨0, 0⟩).map (·.1) = some (Expr.ofStream d.limit s) := by
  have hparser : Expr.ofStream d.limit s = (d.parser s).whole s.lexemes := rfl
  have hread : Tracks s 1 0
      ((d.parser s).expression ((d.parser s).unary d.limit) s.lexemes)
      (d.run n .expression ⟨0, 0⟩) := answers_run hd n .expression ⟨0, 0⟩ (Nat.zero_le _) hn
  rw [hparser, Parser.whole, whole]
  have hlimit : (d.parser s).limit = d.limit := rfl
  rw [hlimit]
  generalize (d.parser s).expression ((d.parser s).unary d.limit) s.lexemes = r at hread
  generalize ho : d.run n .expression ⟨0, 0⟩ = o at hread
  cases hread with
  | error f st =>
    rw [bind_of_error ho]
    rfl
  | @ok e j _ hle =>
    rw [bind_of_ok ho]
    rcases hd.cases hle with ⟨hdrop, hlook⟩ | ⟨l, q, -, hdrop, hlook⟩
    · rw [bind_of_ok (peek_eq hlook), hdrop, Token.kind_end, if_neg (not_not_intro rfl)]
      rfl
    · rw [bind_of_ok (peek_eq hlook), hdrop, Token.kind_lexeme, if_pos l.kind_ne_endOfInput]
      rfl

/-- **A descent over a token list finds its expression**, or why it spells none. -/
theorem parse_eq {n limit : Nat} {ts : List Token} (hn : 9 * firstEnd ts + 7 < n) :
    parse n limit ts = some (Expr.ofTokens limit ts) := by
  rw [← length_ofTokensFrom 0 ts] at hn
  exact whole_eq (shows_ofTokens limit ts) hn

/-- The first end of input stands behind what is no end. -/
theorem firstEnd_append {pre : List Token} (hpre : ∀ u ∈ pre, u.kind ≠ .endOfInput) {t : Token}
    (ht : t.kind = .endOfInput) (rest : List Token) : firstEnd (pre ++ t :: rest) = pre.length := by
  have hnone : pre.findIdx (fun u => u.kind = .endOfInput) = pre.length :=
    List.findIdx_eq_length.2 fun u hu => decide_eq_false (hpre u hu)
  rw [firstEnd, List.findIdx_append, hnone, if_neg (Nat.lt_irrefl _), List.findIdx_cons,
    decide_eq_true ht]
  exact Nat.zero_add _

/-- What stands behind an end of input does not belong to the stream. -/
theorem ofTokensFrom_of_end {pre : List Token} {t : Token} (ht : t.kind = .endOfInput)
    (rest rest' : List Token) (stop : Nat) :
    Stream.ofTokensFrom stop (pre ++ t :: rest) = Stream.ofTokensFrom stop (pre ++ t :: rest') := by
  induction pre generalizing stop with
  | nil =>
    obtain ⟨_ | l, q⟩ := t
    · rfl
    · exact absurd ht l.kind_ne_endOfInput
  | cons u pre ih =>
    obtain ⟨_ | l, q⟩ := u
    · rfl
    · simp only [List.cons_append, Stream.ofTokensFrom, ih]

/-- A list that lacks an end of input is closed by the one that it is given. -/
theorem closed_append_end {pre : List Token} (hpre : ∀ u ∈ pre, u.kind ≠ .endOfInput) :
    closed (pre ++ [⟨none, pre.getLast?.elim 0 fun u => u.offset + 1⟩]) = closed pre := by
  rw [closed, List.getLast?_concat]
  simp only [Token.kind_end, if_true]
  rw [closed]
  cases hlast : pre.getLast? with
  | none =>
    rw [List.getLast?_eq_none_iff.1 hlast]
    rfl
  | some u => simp only [if_neg (hpre u (List.mem_of_getLast? hlast)), Option.elim_some]

/-- **Only the tokens up to the first end of input matter.** Whatever stands behind
it, the descent gives the same tree, or the same fault in the same place, as where
nothing does. And tokens without an end of input are read as with one that stands one
past the last of them, or at 0 if there is none. All of these come to an outcome, on a
stack of nine calls for each token before the end of input. -/
theorem parse_append {n limit : Nat} {pre : List Token} {t : Token}
    (hpre : ∀ u ∈ pre, u.kind ≠ .endOfInput) (ht : t.kind = .endOfInput)
    (hn : 9 * pre.length + 7 < n) (rest : List Token) :
    parse n limit (pre ++ t :: rest) = some (Expr.ofTokens limit (pre ++ [t])) ∧
      parse n limit (pre ++ [t]) = some (Expr.ofTokens limit (pre ++ [t])) ∧
      parse n limit pre = some (Expr.ofTokens limit pre) ∧
      parse n limit (pre ++ [⟨none, pre.getLast?.elim 0 fun u => u.offset + 1⟩]) =
        some (Expr.ofTokens limit pre) := by
  have hclosed : parse n limit (pre ++ [⟨none, pre.getLast?.elim 0 fun u => u.offset + 1⟩]) =
      parse n limit pre := by
    rw [parse, ofTokens, closed_append_end hpre]
    rfl
  have hfirst (rest : List Token) : 9 * firstEnd (pre ++ t :: rest) + 7 < n := by
    rw [firstEnd_append hpre ht]
    exact hn
  have hnone : 9 * firstEnd pre + 7 < n := by
    have hle : firstEnd pre ≤ pre.length := List.findIdx_le_length
    omega
  rw [hclosed, parse_eq (hfirst rest), parse_eq (hfirst []), parse_eq hnone, Expr.ofTokens,
    Stream.ofTokens, ofTokensFrom_of_end ht rest []]
  exact ⟨rfl, rfl, rfl, rfl⟩

/-- The tokens of `a b` with more behind the end of input are refused for the second
name, and those of `a +` without an end of input for an end of input behind the operator. -/
theorem parse_append_faults :
    (∀ rest, parse 40 8 ([⟨some (.identifier "a"), 0⟩, ⟨some (.identifier "b"), 2⟩] ++
        ⟨none, 3⟩ :: rest) = some (.error (.unexpectedToken .identifier .operatorOrEnd 2))) ∧
      parse 40 8 [⟨some (.identifier "a"), 0⟩, ⟨some (.symbol .plus), 2⟩] =
        some (.error (.unexpectedEnd .operand 3)) := by
  have hnames : ∀ u ∈ ([⟨some (.identifier "a"), 0⟩, ⟨some (.identifier "b"), 2⟩] : List Token),
      u.kind ≠ .endOfInput := by decide
  have hsum : ∀ u ∈ ([⟨some (.identifier "a"), 0⟩, ⟨some (.symbol .plus), 2⟩] : List Token),
      u.kind ≠ .endOfInput := by decide
  exact ⟨fun rest => (parse_append hnames (Token.kind_end 3) (by decide) rest).1,
    (parse_append hsum (Token.kind_end 3) (by decide) []).2.2.1⟩

end Descent
end Enablement
