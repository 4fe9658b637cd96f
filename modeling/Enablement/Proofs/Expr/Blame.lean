import Enablement.Proofs.Expr.Continuation
import Enablement.Proofs.Expr.Recognition

/-!
# Parsing — which lexeme is to blame

Under a limit that is not below the number of lexemes, a parse fails only
where the grammar does. Its fault then speaks of the first lexeme that cannot
be continued: what was read before begins some expression, and with this
lexeme it begins none (`Expr.blames_of_ofStream`). That is shown of each step
of the parser. A step `Follows` the lexemes if it stops behind an operand, or
blames the lexeme that may not come next; and two steps in a row follow them
if each does (`Follows.bind`).
-/

namespace Enablement

open Point

/-! ## Faults that follow the lexemes -/

/-- What is left of the input is not taken up by what was read before: there is
no call to make of a name, and no operator of rank `k` or below. -/
def Ends (k : Nat) (place : Place) (rest : Input) : Prop :=
  ∀ t ∈ rest.head?, (place = .name → t.val ≠ .symbol .leftParen) ∧
    ∀ op : Operator, t.val = .symbol op.symbol → k < op.rank

/-- **The fault speaks of the next lexeme**, and that one may not come after
`us`; or it speaks of the end of input. -/
inductive Parser.Accuses (p : Parser) (x : Point) (us : List Lexeme) : Input → Fault → Prop
  /-- The input ends. -/
  | stop (w : Expected) : Accuses p x us [] (.unexpectedEnd w p.stop)
  /-- The lexeme may not come next. -/
  | lexeme {t : Located Lexeme} {rest : Input} (w : Expected) :
      x.read? (us ++ [t.val]) = none →
      Accuses p x us (t :: rest) (.unexpectedToken t.val.kind w t.offset)
  /-- The integer fits nowhere. -/
  | integer {text : String} {place : Nat} {rest : Input} :
      x.read? (us ++ [.integer text]) = none → Text.int32OfText? text = none →
      Accuses p x us (⟨.integer text, place⟩ :: rest) (.integerOverflow text place)

/-- **The fault blames the first lexeme that cannot be continued**: what is
before it begins an `X`. -/
def Parser.Blames {α : Type} (p : Parser) (X : List Lexeme → α → Prop) (x : Point) (ts : Input)
    (f : Fault) : Prop :=
  ∃ us rest, ts = us ++ rest ∧ (∃ vs a, X (us.map (·.val) ++ vs) a) ∧
    p.Accuses x (us.map (·.val)) rest f

/-- **What a step makes of the lexemes that it finds at a point.** It stops
behind an operand, with the parentheses `bs` open, or it blames the first
lexeme that begins no `X`. -/
inductive Follows {α : Type} (p : Parser) (X : List Lexeme → α → Prop) (k : Nat) (x : Point)
    (bs : List Bracket) (ts : Input) : Except Fault (α × Input) → Prop
  /-- It stops behind an operand. -/
  | ok {us rest : Input} {place : Place} (a : α) :
      ts = us ++ rest → place.Complete → x.read? (us.map (·.val)) = some ⟨place, bs⟩ →
      Ends k place rest → Follows p X k x bs ts (.ok (a, rest))
  /-- It blames a lexeme. -/
  | error {f : Fault} : p.Blames X x ts f → Follows p X k x bs ts (.error f)

section

variable {α β : Type} {p : Parser} {X : List Lexeme → α → Prop} {Z : List Lexeme → β → Prop}
variable {k j : Nat} {x y : Point} {place : Place} {b : Bracket} {bs cs : List Bracket}
variable {us ts rest : Input} {t : Located Lexeme} {f : Fault}

/-- The end of the input takes nothing up. -/
theorem ends_nil : Ends k place [] := by simp [Ends]

/-- Behind a closing parenthesis no name is left to be called. -/
theorem ends_operator : Ends 0 .operator ts :=
  fun _ _ => ⟨by simp, fun op _ => op.rank_pos⟩

/-- What no operator of the next rank takes up is not taken up up to that rank. -/
theorem Ends.succ (h : Ends k place ts) (hnone : Parser.operatorAt (k + 1) ts = none) :
    Ends (k + 1) place ts := by
  intro t ht
  refine ⟨(h t ht).1, fun op hop => Nat.lt_of_le_of_ne ((h t ht).2 op hop) fun hrank => ?_⟩
  obtain ⟨us, rfl⟩ := List.head?_eq_some_iff.1 ht
  obtain ⟨v, q⟩ := t
  obtain rfl := hop
  rw [Parser.operatorAt_symbol hrank.symm] at hnone
  cases hnone

/-- Behind a whole expression, only what ends it may come next. -/
theorem Ends.next?_eq_none (h : Ends Operator.topRank place (t :: ts)) (hplace : place.Complete)
    (hclose : bs = [] ∨ t.val ≠ .symbol .rightParen)
    (hcomma : bs.head? = some .call → t.val ≠ .symbol .comma) :
    next? ⟨place, bs⟩ t.val = none := by
  obtain ⟨hname, hop⟩ := h t rfl
  have hnot : ∀ s, t.val = .symbol s → Operator.ofSymbol? s = none := by
    intro s hs
    cases ho : Operator.ofSymbol? s with
    | none => rfl
    | some op =>
      have hrank := hop op (by rw [hs, Operator.ofSymbol?_eq_some_iff.1 ho])
      exact absurd op.rank_le_topRank (by omega)
  rw [next?_of_complete hplace hname]
  unfold operator?
  split
  next ht => exact absurd ht (hclose.resolve_left (by simp))
  next ht => exact absurd ht (hcomma rfl)
  next s _ _ hs => rw [hnot s hs]; rfl
  next => rfl

/-! ## What comes before -/

/-- What is to blame where lexemes were read before is to blame from their start. -/
theorem Parser.Accuses.after {as bs : List Lexeme} (h : p.Accuses y bs rest f)
    (hread : x.read? as = some y) : p.Accuses x (as ++ bs) rest f := by
  cases h with
  | stop w => exact .stop w
  | lexeme w h => exact .lexeme w (by rw [List.append_assoc, read?_append_of hread, h])
  | integer h hn => exact .integer (by rw [List.append_assoc, read?_append_of hread, h]) hn

/-- Lexemes that were read before are not to blame. -/
theorem Follows.after {r : Except Fault (α × Input)} {Y : List Lexeme → α → Prop}
    (h : Follows p Y k y bs ts r) (hread : x.read? (us.map (·.val)) = some y)
    (hX : ∀ vs a, Y vs a → X (us.map (·.val) ++ vs) a) : Follows p X k x bs (us ++ ts) r := by
  cases h with
  | @ok vs rest place a hts hplace hvs hends =>
    have hall : us ++ ts = (us ++ vs) ++ rest := by rw [hts, List.append_assoc]
    refine .ok a hall hplace ?_ hends
    rw [List.map_append, read?_append_of hread, hvs]
  | error h =>
    obtain ⟨vs, rest, rfl, ⟨ws, a, hws⟩, haccuses⟩ := h
    refine .error ⟨us ++ vs, rest, by rw [List.append_assoc], ⟨ws, a, ?_⟩, ?_⟩
    · rw [List.map_append, List.append_assoc]
      exact hX _ _ hws
    · rw [List.map_append]
      exact haccuses.after hread

/-- What begins a smaller phrase begins a larger one. -/
theorem Follows.imp {r : Except Fault (α × Input)} {Y : List Lexeme → α → Prop}
    (h : Follows p Y k x bs ts r) (hX : ∀ vs a, Y vs a → X vs a) : Follows p X k x bs ts r := by
  have hnil : x.read? (([] : Input).map (·.val)) = some x := rfl
  exact h.after hnil hX

/-- One lexeme was read before, and it is not to blame. -/
theorem Follows.cons {r : Except Fault (α × Input)}
    (h : Follows p (fun vs => X (t.val :: vs)) k y bs ts r) (hnext : x.next? t.val = some y) :
    Follows p X k x bs (t :: ts) r := by
  have hread : x.read? ([t].map (·.val)) = some y := by simp [hnext]
  exact h.after hread fun _ _ h => h

/-- A step that takes nothing more. -/
theorem Follows.done (a : α) (hplace : place.Complete) (h : Ends k place ts) :
    Follows p X k ⟨place, bs⟩ bs ts (.ok (a, ts)) :=
  .ok a (List.nil_append ts).symm hplace rfl h

/-- The first argument of a call is read as any operand is. -/
theorem Follows.argument {r : Except Fault (α × Input)} (h : Follows p X k ⟨.operand, cs⟩ bs ts r)
    (hts : ∀ q us, ts ≠ ⟨.symbol .rightParen, q⟩ :: us) :
    Follows p X k ⟨.argument, cs⟩ bs ts r := by
  -- the two places differ in the closing parenthesis only, which `hts` excludes as the first lexeme
  have hsame : ∀ u vs, u :: vs <+: ts.map (·.val) →
      read? ⟨.argument, cs⟩ (u :: vs) = read? ⟨.operand, cs⟩ (u :: vs) := by
    rintro u vs ⟨ws, hws⟩
    obtain ⟨q, us, rfl, -⟩ := eq_cons_of_map_val hws.symm
    refine read?_argument fun hu => hts q us ?_
    rw [hu]
  cases h with
  | @ok us rest place a hts' hplace hread hends =>
    cases us with
    -- an operand is not complete before its first lexeme
    | nil =>
      obtain rfl : Place.operand = place := congrArg Point.place (Option.some.inj hread)
      rcases hplace with h | h <;> cases h
    | cons t us =>
      rw [List.map_cons, ← hsame _ _ ⟨rest.map (·.val), by simp [hts']⟩] at hread
      exact .ok a hts' hplace hread hends
  | error h =>
    obtain ⟨us, rest, hts', hviable, haccuses⟩ := h
    -- a lexeme that is refused in the one place is refused in the other
    have hnone : ∀ t ts', rest = t :: ts' →
        read? ⟨.operand, cs⟩ (us.map (·.val) ++ [t.val]) = none →
        read? ⟨.argument, cs⟩ (us.map (·.val) ++ [t.val]) = none := by
      rintro t ts' rfl hnone
      obtain ⟨u, vs, huvs⟩ := List.exists_cons_of_ne_nil
        (List.append_ne_nil_of_right_ne_nil (us.map (·.val)) (List.cons_ne_nil t.val []))
      rw [huvs] at hnone ⊢
      rw [hsame u vs ⟨ts'.map (·.val), by rw [← huvs, hts']; simp⟩, hnone]
    refine .error ⟨us, rest, hts', hviable, ?_⟩
    cases haccuses with
    | stop w => exact .stop w
    | lexeme w h => exact .lexeme w (hnone _ _ rfl h)
    | integer h hn => exact .integer (hnone _ _ rfl h) hn

/-- Nor does it matter what is made of the result. -/
theorem Follows.map {r : Except Fault (α × Input)} {g : α → β} (h : Follows p X k x bs ts r)
    (hX : ∀ us a, X us a → Z us (g a)) :
    Follows p Z k x bs ts (r >>= fun a => .ok (g a.1, a.2)) := by
  cases h with
  | ok a hts hplace hread hends => exact .ok (g a) hts hplace hread hends
  | error h =>
    obtain ⟨us, rest, hts, ⟨vs, a, ha⟩, haccuses⟩ := h
    exact .error ⟨us, rest, hts, ⟨vs, g a, hX _ _ ha⟩, haccuses⟩

/-- **Two steps in a row follow the lexemes**, if what the first can read can
be completed. -/
theorem Follows.bind {step : Parse α} {g : α × Input → Except Fault (β × Input)}
    (h : Follows p X k x bs ts (step ts)) (hsound : Sound step X)
    (hX : ∀ us a, X us a → ∃ vs c, Z (us ++ vs) c)
    (hg : ∀ us rest a place, ts = us ++ rest → X (us.map (·.val)) a → place.Complete →
      Ends k place rest →
      Follows p (fun vs c => Z (us.map (·.val) ++ vs) c) j ⟨place, bs⟩ cs rest (g (a, rest))) :
    Follows p Z j x cs ts (step ts >>= g) := by
  cases hr : step ts with
  | error f =>
    rw [hr] at h
    cases h with
    | error h =>
      obtain ⟨us, rest, hts, ⟨vs, a, ha⟩, haccuses⟩ := h
      obtain ⟨ws, c, hc⟩ := hX _ _ ha
      exact .error ⟨us, rest, hts, ⟨vs ++ ws, c, by rwa [← List.append_assoc]⟩, haccuses⟩
  | ok a =>
    obtain ⟨a, rest⟩ := a
    rw [hr] at h
    cases h with
    | @ok us _ place _ hts hplace hread hends =>
      obtain ⟨us', hts', ha⟩ := hsound _ _ _ hr
      obtain rfl := List.append_cancel_right (hts'.symm.trans hts)
      rw [hts]
      exact (hg us' rest a place hts ha hplace hends).after hread fun _ _ hc => hc

end

namespace Parser

variable (p : Parser) {step : Parse Expr} {k m n : Nat} {x y : Phrase} {ops : List Operator}
variable {place : Place} {bs : List Bracket} {ts : Input} {l : Expr}

/-- The step follows the lexemes of every input of length `m` at most, from
where an operand has to follow. -/
def Heeds (m : Nat) (x : Phrase) (step : Parse Expr) : Prop :=
  ∀ ts bs, ts.length ≤ m → Follows p (Derives x) x.rank ⟨.operand, bs⟩ bs ts (step ts)

/-- Under a limit that is not below its depth a tree is let through. -/
theorem bounded_of_depth_le {e : Expr} (h : e.depth ≤ p.limit) (place : Nat) :
    p.bounded place e = .ok e := if_pos h

/-! ## Chains -/

/-- **A chain goes on until the next lexeme is no operator of its rank**, or its next
operand blames a lexeme. -/
theorem follows_extend (hc : x.chain? = some (ops, y)) (hstep : p.Heeds m y step)
    (hsound : Sound step (Derives y)) (hn : ts.length ≤ n) (hm : ts.length ≤ m)
    (hdepth : l.depth + ts.length ≤ p.limit) (hplace : place.Complete)
    (hends : Ends y.rank place ts) :
    Follows p (DerivesChain ops y l) x.rank ⟨place, bs⟩ bs ts (p.extend x.rank step n l ts) := by
  obtain ⟨hrank, -, hops⟩ := Phrase.rank_of_chain? hc
  induction n generalizing l ts place with
  | zero =>
    obtain rfl := List.eq_nil_of_length_eq_zero (Nat.le_zero.1 hn)
    exact .done l hplace ends_nil
  | succ n ih =>
    rw [extend]
    cases ho : operatorAt x.rank ts with
    | none =>
      rw [hrank] at ho ⊢
      exact .done l hplace (hends.succ ho)
    | some o =>
      obtain ⟨op, q, us⟩ := o
      obtain ⟨rfl, hk⟩ := operatorAt_eq_some ho
      have hop := (hops op).2 hk
      rw [List.length_cons] at hn hm hdepth
      -- the operator is read, then its right operand, and then what more there is
      refine .cons ?_ (next?_operator op hplace)
      refine (hstep us bs (by omega)).bind hsound ?_ ?_
      · exact fun vs r hr => ⟨[], _, .more hop hr .done⟩
      · intro vs rest r place' hus hr hplace' hends'
        have hle := hr.depth_le_length
        rw [List.length_map] at hle
        rw [hus, List.length_append] at hn hm hdepth
        have hnode : (op.apply l r).depth + rest.length ≤ p.limit := by
          rw [Operator.depth_apply]
          omega
        have hmore : Follows p (DerivesChain ops y (op.apply l r)) x.rank ⟨place', bs⟩ bs rest
            (p.extend x.rank step n (op.apply l r) rest) :=
          ih (by omega) (by omega) hnode hplace' hends'
        simp only [p.bounded_of_depth_le (Nat.le_of_add_right_le hnode)]
        exact hmore.imp fun ws e he => .more hop hr he

/-- Each rank follows the lexemes if the operands do: by induction on the rank. -/
theorem heeds_ranked (hstep : p.Heeds m .unary step) (hsound : Sound step (Derives .unary))
    (hm : m ≤ p.size) (hlimit : m ≤ p.limit) (hx : x.rank = k) (hx' : x ≠ .primary) :
    p.Heeds m x (p.ranked step k) := by
  induction k generalizing x with
  | zero =>
    have : x = .unary := by cases x <;> simp [Phrase.rank] at hx hx' ⊢
    rw [this]
    exact hstep
  | succ k ih =>
    obtain ⟨ops, y, hc⟩ := x.exists_chain? (by omega)
    obtain ⟨hrank, hy, -⟩ := Phrase.rank_of_chain? hc
    have hyk : y.rank = k := by omega
    have hysound : Sound (p.ranked step k) (Derives y) := p.sound_ranked hsound hyk hy
    intro ts bs hts
    -- the first operand is of the next tighter rank, and the loop over the operators follows it
    refine (ih hyk hy ts bs hts).bind hysound ?_ ?_
    · exact fun us l hl => ⟨[], l, .chain hc hl .done⟩
    · intro us rest l place hus hl hplace hends
      -- the operand is no deeper than it has lexemes, so no node of the chain crosses the limit
      have hle := hl.depth_le_length
      rw [List.length_map] at hle
      rw [hus, List.length_append] at hts
      have hchain : Follows p (DerivesChain ops y l) x.rank ⟨place, bs⟩ bs rest
          (p.extend x.rank (p.ranked step k) p.size l rest) :=
        p.follows_extend hc (ih hyk hy) hysound (by omega) (by omega) (by omega) hplace hends
      rw [hx] at hchain ⊢
      exact hchain.imp fun vs e he => .chain hc hl he

/-- So a whole expression does. -/
theorem heeds_expression (hstep : p.Heeds m .unary step) (hsound : Sound step (Derives .unary))
    (hm : m ≤ p.size) (hlimit : m ≤ p.limit) : p.Heeds m .or (p.expression step) :=
  p.heeds_ranked hstep hsound hm hlimit rfl (by simp)

/-! ## Parentheses and arguments -/

/-- **Behind an expression in parentheses**, the closing one is found, or what
stands in its place is to blame. -/
theorem follows_close {α : Type} (a : α) (w : Expected) {b : Bracket} (hplace : place.Complete)
    (hends : Ends Operator.topRank place ts)
    (hcomma : b = .call → ∀ t ∈ ts.head?, t.val ≠ .symbol .comma) :
    Follows p (fun us c => us = [.symbol .rightParen] ∧ c = a) 0 ⟨place, b :: bs⟩ bs ts (do
      let ts ← p.expect .rightParen w ts
      .ok (a, ts)) := by
  cases ts with
  | nil => exact .error ⟨[], [], rfl, ⟨_, a, rfl, rfl⟩, .stop w⟩
  | cons t ts =>
    by_cases ht : t.val = .symbol .rightParen
    · have hnext : next? ⟨place, b :: bs⟩ t.val = some ⟨.operator, bs⟩ := by
        rw [ht, next?_rightParen b hplace]
      simp only [expect, if_pos ht]
      exact .cons (.done a (.inr rfl) ends_operator) hnext
    · have hnone : next? ⟨place, b :: bs⟩ t.val = none :=
        hends.next?_eq_none hplace (.inr ht) fun hb => hcomma (by simpa using hb) t rfl
      simp only [expect, if_neg ht]
      exact .error ⟨[], t :: ts, rfl, ⟨_, a, rfl, rfl⟩, .lexeme w (by simp [hnone])⟩

/-- Where no comma follows, the call has to end. -/
theorem follows_moreArguments_of_head? (hplace : place.Complete)
    (hends : Ends Operator.topRank place ts) (hcomma : ∀ t ∈ ts.head?, t.val ≠ .symbol .comma) :
    Follows p (Closed DerivesMore) 0 ⟨place, .call :: bs⟩ bs ts (p.moreArguments step n ts) := by
  have hlast : p.moreArguments step n ts = (do
      let ts ← p.expect .rightParen .commaOrClosingParen ts
      .ok ([], ts)) := by
    unfold moreArguments
    split
    next => exact absurd rfl (hcomma _ rfl)
    next => rfl
  rw [hlast]
  refine (p.follows_close [] .commaOrClosingParen hplace hends fun _ => hcomma).imp ?_
  rintro vs es ⟨rfl, rfl⟩
  exact ⟨[], rfl, .done⟩

/-- The arguments behind the first follow the lexemes through the closing parenthesis. -/
theorem follows_moreArguments (hstep : p.Heeds m .or step) (hsound : Sound step (Derives .or))
    (hn : ts.length ≤ n) (hm : ts.length ≤ m) (hplace : place.Complete)
    (hends : Ends Operator.topRank place ts) :
    Follows p (Closed DerivesMore) 0 ⟨place, .call :: bs⟩ bs ts (p.moreArguments step n ts) := by
  induction n generalizing ts place with
  | zero =>
    obtain rfl := List.eq_nil_of_length_eq_zero (Nat.le_zero.1 hn)
    exact p.follows_moreArguments_of_head? hplace hends (by simp)
  | succ n ih =>
    -- without a comma the call has to end; with one the loop runs again on fewer lexemes
    by_cases hcomma : ∀ t ∈ ts.head?, t.val ≠ .symbol .comma
    · exact p.follows_moreArguments_of_head? hplace hends hcomma
    obtain ⟨q, us, rfl⟩ : ∃ q us, ts = ⟨.symbol .comma, q⟩ :: us := by
      cases ts with
      | nil => simp at hcomma
      | cons t us =>
        have ht : t.val = .symbol .comma := by simpa using hcomma
        exact ⟨t.offset, us, by rw [← ht]⟩
    rw [List.length_cons] at hn hm
    refine .cons ?_ (next?_comma hplace)
    refine (hstep us (.call :: bs) (by omega)).bind hsound ?_ ?_
    · intro vs e he
      exact ⟨[.symbol .rightParen], [e], .symbol .comma :: (vs ++ []), by simp, .more he .done⟩
    · intro vs rest e place' hus he hplace' hends'
      rw [hus, List.length_append] at hn hm
      refine (ih (by omega) (by omega) hplace' hends').map ?_
      rintro _ es ⟨ws, rfl, hes⟩
      exact ⟨.symbol .comma :: (vs.map (·.val) ++ ws), by simp, .more he hes⟩

/-- So do all arguments, with or without a first one. -/
theorem follows_arguments (hstep : p.Heeds m .or step) (hsound : Sound step (Derives .or))
    (hsize : ts.length ≤ p.size) (hm : ts.length ≤ m) :
    Follows p (Closed DerivesArguments) 0 ⟨.argument, .call :: bs⟩ bs ts
      (p.arguments step ts) := by
  unfold arguments
  split
  next q us => exact .cons (.done [] (.inr rfl) ends_operator) rfl
  next hne =>
    refine Follows.bind ((hstep ts (.call :: bs) hm).argument hne) hsound ?_ ?_
    · intro vs e he
      exact ⟨[.symbol .rightParen], [e], vs ++ [], by simp, .some he .done⟩
    · intro vs rest e place hus he hplace hends
      rw [hus, List.length_append] at hsize hm
      have hmore : Follows p (Closed DerivesMore) 0 ⟨place, .call :: bs⟩ bs rest
          (p.moreArguments step p.size rest) :=
        p.follows_moreArguments hstep hsound (by omega) (by omega) hplace hends
      refine hmore.map ?_
      rintro _ es ⟨ws, rfl, hes⟩
      exact ⟨vs.map (·.val) ++ ws, by simp, .some he hes⟩

/-! ## Operands -/

/-- An operator before its operand follows the lexemes that its operand follows. -/
theorem follows_prefixed (op : UnaryOp) (q : Nat) (hstep : p.Heeds m .unary step)
    (hsound : Sound step (Derives .unary)) (hm : ts.length ≤ m) (hlimit : ts.length < p.limit) :
    Follows p (fun vs => Derives .unary (.symbol op.symbol :: vs)) 0 ⟨.operand, bs⟩ bs ts
      (p.prefixed (some step) op q ts) := by
  refine (hstep ts bs hm).bind hsound ?_ ?_
  · exact fun vs x hx => ⟨[], _, .unary (by rwa [List.append_nil])⟩
  · intro vs rest x place hus hx hplace hends
    have hle := hx.depth_le_length
    rw [List.length_map] at hle
    rw [hus, List.length_append] at hlimit
    have hnode : (Expr.unary op x).depth ≤ p.limit := by
      rw [Expr.depth]
      omega
    simp only [p.bounded_of_depth_le hnode]
    exact .done _ hplace hends

/-- An expression in parentheses does so through the closing one. -/
theorem follows_parenthesised (hstep : p.Heeds m .unary step)
    (hsound : Sound step (Derives .unary)) (hts : ts.length ≤ m) (hm : m ≤ p.size)
    (hlimit : m ≤ p.limit) :
    Follows p (Closed (Derives .or)) 0 ⟨.operand, .group :: bs⟩ bs ts
      (p.parenthesised (some step) ts) := by
  refine Follows.bind (p.heeds_expression hstep hsound hm hlimit ts (.group :: bs) hts)
    (p.sound_expression hsound) ?_ ?_
  · exact fun vs e he => ⟨[.symbol .rightParen], e, vs, rfl, he⟩
  · intro vs rest e place hus he hplace hends
    refine (p.follows_close e .closingParen hplace hends (by simp)).imp ?_
    rintro ws c ⟨rfl, rfl⟩
    exact ⟨vs.map (·.val), rfl, he⟩

/-- A name follows the lexemes, with or without arguments behind it. -/
theorem follows_called (name : String) (q : Nat) (hstep : p.Heeds m .unary step)
    (hsound : Sound step (Derives .unary)) (hts : ts.length ≤ m) (hm : m ≤ p.size)
    (hlimit : m < p.limit) :
    Follows p (fun vs => Derives .primary (.identifier name :: .symbol .leftParen :: vs)) 0
      ⟨.argument, .call :: bs⟩ bs ts (p.called (some step) name q ts) := by
  have hexpr := p.sound_expression hsound
  have hargs : Follows p (Closed DerivesArguments) 0 ⟨.argument, .call :: bs⟩ bs ts
      (p.arguments (p.expression step) ts) :=
    p.follows_arguments (p.heeds_expression hstep hsound hm (by omega)) hexpr (by omega) hts
  refine Follows.bind hargs (p.sound_arguments hexpr) ?_ ?_
  · rintro _ es ⟨vs, rfl, hes⟩
    exact ⟨[], _, by rw [List.append_nil]; exact .call hes⟩
  · rintro vs rest es place hus ⟨ws, hws, hes⟩ hplace hends
    have hle := hes.depthAll_le_length
    have hlen := congrArg List.length hws
    rw [List.length_map, List.length_append] at hlen
    rw [hus, List.length_append] at hts
    have hnode : (Expr.call name es).depth ≤ p.limit := by
      rw [Expr.depth]
      omega
    simp only [p.bounded_of_depth_le hnode]
    exact .done _ hplace hends

variable {inner : Option (Parse Expr)}

/-- An operand may begin with nothing read. -/
theorem exists_derives_unary : ∃ vs e, Derives .unary ([] ++ vs) e :=
  ⟨_, _, .primary (@Derives.string "")⟩

/-- A point where an operand has to follow and none does. -/
theorem follows_unexpected (ht : ∀ t ∈ ts.head?, operand? bs t.val = none) :
    Follows p (Derives .unary) 0 ⟨.operand, bs⟩ bs ts (.error (p.unexpected .operand ts)) := by
  cases ts with
  | nil => exact .error ⟨[], [], rfl, exists_derives_unary, .stop _⟩
  | cons t ts =>
    have hnone : read? ⟨.operand, bs⟩ ([] ++ [t.val]) = none := by simp [next?, ht t rfl]
    exact .error ⟨[], t :: ts, rfl, exists_derives_unary, .lexeme _ hnone⟩

/-- **An operand follows the lexemes** if those that are nested in it do. -/
theorem follows_operand (hstep : p.Heeds (m - 1) .unary step)
    (hsound : Sound step (Derives .unary)) (hts : ts.length ≤ m) (hm : m ≤ p.size)
    (hlimit : p.size ≤ p.limit) :
    Follows p (Derives .unary) 0 ⟨.operand, bs⟩ bs ts (p.operand (some step) ts) := by
  unfold operand
  split
  next => exact p.follows_unexpected (by simp)
  next s q us =>
    rw [List.length_cons] at hts
    split
    -- a prefix operator, whose operand the fuel of one level less covers
    next op hop =>
      obtain rfl := UnaryOp.ofSymbol?_eq_some_iff.1 hop
      exact .cons (p.follows_prefixed op q hstep hsound (by omega) (by omega)) (next?_unaryOp op)
    next hop =>
      split
      next hs =>
        subst hs
        have hparens : Follows p (Closed (Derives .or)) 0 ⟨.operand, .group :: bs⟩ bs us
            (p.parenthesised (some step) us) :=
          p.follows_parenthesised hstep hsound (by omega) (by omega) (by omega)
        refine .cons (hparens.imp ?_) rfl
        rintro _ e ⟨ws, rfl, he⟩
        exact .primary (.parentheses he)
      next hs =>
        refine p.follows_unexpected fun t ht => ?_
        obtain rfl := Option.some.inj ht
        exact operand?_symbol hs hop
  -- a name with a parenthesis behind it takes two lexemes at once
  next name q q' us =>
    simp only [List.length_cons] at hts
    have hcall :
        Follows p (fun vs => Derives .primary (.identifier name :: .symbol .leftParen :: vs)) 0
          ⟨.argument, .call :: bs⟩ bs us (p.called (some step) name q us) :=
      p.follows_called name q hstep hsound (by omega) (by omega) (by omega)
    exact .cons (.cons (hcall.imp fun vs e he => .primary he) rfl) rfl
  -- a name alone may be continued by anything but a parenthesis
  next name q us hne =>
    refine .cons (.done _ (.inl rfl) fun t ht => ⟨fun _ hparen => ?_, fun op _ => op.rank_pos⟩) rfl
    obtain ⟨vs, rfl⟩ := List.head?_eq_some_iff.1 ht
    exact hne t.offset vs (by rw [← hparen])
  next text q us => exact .cons (.done _ (.inr rfl) ends_operator) rfl
  next text q us =>
    split
    next n hn =>
      have hnext : next? ⟨.operand, bs⟩ (.integer text) = some ⟨.operator, bs⟩ := by
        simp [next?, operand?, hn]
      exact .cons (.done _ (.inr rfl) ends_operator) hnext
    next hn =>
      have hnone : read? ⟨.operand, bs⟩ ([] ++ [.integer text]) = none := by
        simp [next?, operand?, hn]
      exact .error ⟨[], _, rfl, exists_derives_unary, .integer hnone hn⟩
  next text q us => exact .cons (.done _ (.inr rfl) ends_operator) rfl

/-- **An operand is read with care** where there is a level left for each lexeme. -/
theorem heeds_unary (hlimit : p.size ≤ p.limit) (hmn : m ≤ n) (hm : m ≤ p.size) :
    p.Heeds m .unary (p.unary n) := by
  induction n generalizing m with
  | zero =>
    intro ts bs hts
    obtain rfl : ts = [] := List.eq_nil_of_length_eq_zero (by omega)
    exact p.follows_unexpected (by simp)
  | succ n ih =>
    intro ts bs hts
    exact p.follows_operand (ih (by omega) (by omega)) (p.sound_unary n) hts hm hlimit

/-! ## Whole inputs -/

/-- **A parse that fails blames a lexeme.** -/
theorem blames_of_whole (hlimit : p.size ≤ p.limit) (hsize : ts.length ≤ p.size) {f : Fault}
    (h : p.whole ts = .error f) : p.Blames (Derives .or) ⟨.operand, []⟩ ts f := by
  have hunary := p.sound_unary p.limit
  have hexpr := p.heeds_expression (p.heeds_unary hlimit hlimit (Nat.le_refl _)) hunary
    (Nat.le_refl _) hlimit ts [] hsize
  rw [whole] at h
  cases hr : p.expression (p.unary p.limit) ts with
  | error f' =>
    rw [hr] at h hexpr
    obtain rfl := Except.error.inj h
    cases hexpr with
    | error hblames => exact hblames
  | ok a =>
    obtain ⟨e, rest⟩ := a
    obtain ⟨us, rfl, he⟩ := p.sound_expression hunary _ _ _ hr
    rw [hr] at h hexpr
    cases rest with
    | nil => cases h
    -- an expression was read and lexemes are left: the first of them cannot continue it,
    -- since no bracket is open that it could close
    | cons t rest =>
      obtain rfl := Except.error.inj h
      cases hexpr with
      | ok _ hus hplace hread hends =>
        obtain rfl := List.append_cancel_right hus
        refine ⟨us, t :: rest, rfl, ⟨[], e, by rwa [List.append_nil]⟩, .lexeme _ ?_⟩
        rw [read?_append_of hread, read?_cons, hends.next?_eq_none hplace (.inl rfl) (by simp)]
        rfl

end Parser

namespace Expr

variable {limit : Nat} {s : Stream} {f : Fault}

/-- **Under a limit that is not below the number of lexemes, a fault blames the
first lexeme that cannot be continued.** -/
theorem blames_of_ofStream (h : s.lexemes.length ≤ limit) (hf : ofStream limit s = .error f) :
    Parser.Blames ⟨limit, s.stop, s.lexemes.length⟩ (Derives .or) ⟨.operand, []⟩ s.lexemes f :=
  Parser.blames_of_whole _ h (Nat.le_refl _) hf

/-- And so it is not the fault of the limit. -/
theorem ne_nestingTooDeep_of_ofStream (h : s.lexemes.length ≤ limit) (n place : Nat) :
    ofStream limit s ≠ .error (.nestingTooDeep n place) := by
  intro hf
  obtain ⟨us, rest, -, -, haccuses⟩ := blames_of_ofStream h hf
  cases haccuses

end Expr

/-- **A syntax error blames the first token that cannot be continued.** Where a
list of tokens without an end of input is refused, under a limit that is not
below its length, and all its integers fit into 32 bits, the fault speaks of
one place in it. The tokens before that place begin an expression. If the
fault is a token, it is the one at this place, and with it they begin none; if
it is the end of input, the place is behind all tokens, and they are no
expression. -/
theorem ofTokens_blames_first (ls : List (Located Lexeme)) (limit : Nat) (h : ls.length ≤ limit)
    (hfits : ∀ t ∈ ls, ∀ text, t.val = .integer text → (Text.int32OfText? text).isSome = true)
    (f : Fault) (hf : Expr.ofTokens limit (ls.map fun l => ⟨some l.val, l.offset⟩) = .error f) :
    ∃ i, Viable ((ls.take i).map (·.val)) ∧
      ((∃ t w, ls[i]? = some t ∧ f = .unexpectedToken t.val.kind w t.offset ∧
          ¬ Viable ((ls.take (i + 1)).map (·.val))) ∨
        (i = ls.length ∧
          (∃ w, f = .unexpectedEnd w
            (Stream.ofTokens (ls.map fun l => ⟨some l.val, l.offset⟩)).stop) ∧
          ¬ ∃ e, Derives .or (ls.map (·.val)) e)) := by
  rw [Expr.ofTokens] at hf
  generalize hs : Stream.ofTokens (ls.map fun l => ⟨some l.val, l.offset⟩) = s at hf ⊢
  obtain rfl : s.lexemes = ls := by
    rw [← hs, Stream.ofTokens, Stream.lexemes_ofTokensFrom]
  obtain ⟨us, rest, hus, hviable, haccuses⟩ := Expr.blames_of_ofStream h hf
  refine ⟨us.length, by rwa [hus, List.take_left], ?_⟩
  cases haccuses with
  -- had the lexemes been an expression, the parser would have returned it
  | stop w =>
    refine .inr ⟨by simp [hus], ⟨w, rfl⟩, ?_⟩
    rintro ⟨e, he⟩
    rw [(Expr.ofStream_eq_ok_iff h).2 he] at hf
    cases hf
  | @lexeme t rest w hnone =>
    have htake : s.lexemes.take (us.length + 1) = us ++ [t] := by
      rw [hus, List.take_length_add_append]
      rfl
    refine .inl ⟨t, w, by simp [hus], rfl, ?_⟩
    rw [htake, List.map_append]
    exact not_viable_of_read? hnone
  -- an integer that does not fit, and there is none
  | @integer text q rest hnone hn =>
    have hfit := hfits ⟨.integer text, q⟩ (by simp [hus]) text rfl
    rw [hn] at hfit
    cases hfit

/-- In `min(1,)` the closing parenthesis is to blame: up to the comma there is the
beginning of a call, and with the parenthesis there is none. -/
theorem blames_parenthesis_after_comma :
    Viable [.identifier "min", .symbol .leftParen, .integer "1", .symbol .comma] ∧
      ¬ Viable [.identifier "min", .symbol .leftParen, .integer "1", .symbol .comma,
        .symbol .rightParen] := by
  have hone : (Text.int32OfText? "1").isSome = true := rfl
  obtain ⟨i, hviable, ⟨t, w, ht, hf, hnot⟩ | ⟨-, ⟨w, hf⟩, -⟩⟩ :=
    ofTokens_blames_first
      [⟨.identifier "min", 0⟩, ⟨.symbol .leftParen, 1⟩, ⟨.integer "1", 2⟩, ⟨.symbol .comma, 3⟩,
        ⟨.symbol .rightParen, 4⟩]
      5 (by decide) (by simp [hone])
      (.unexpectedToken (.symbol .rightParen) .operand 4) rfl
  · -- the offset tells which token it is
    match i, ht with
    | 4, _ => exact ⟨hviable, hnot⟩
    | 0, ht | 1, ht | 2, ht | 3, ht =>
      obtain rfl := Option.some.inj ht
      cases hf
    | i + 5, ht => cases ht
  · cases hf

end Enablement
