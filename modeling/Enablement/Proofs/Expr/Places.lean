import Enablement.Condition
import Enablement.Proofs.Expr.Soundness
import Enablement.Proofs.Token.Tiling

/-!
# Parsing — where a fault lies

A parser moves forward through its lexemes and never looks elsewhere. So
wherever a step stops, it leaves what is behind the lexemes that it took, and
its fault speaks of a place that it came to: of a lexeme there, or of the end
of input (`Parser.Reaches`). In a source all such places are offsets of
tokens. And as a scan lets no integer pass that does not fit into 32 bits, a
parser finds none: lexical faults are found in the source, and all others in
its tokens (`Expr.fault_lies_in_its_stage`).
-/

namespace Enablement

/-! ## Faults of the places that are reached -/

/-- **The fault speaks of a place in the input**: of what is left there, or of an
integer of the input that does not fit. -/
inductive Parser.SpeaksOf (p : Parser) (ts : Input) : Fault → Prop
  /-- Something else was expected in this place. -/
  | unexpected (w : Expected) {rest : Input} : rest <:+ ts → SpeaksOf p ts (p.unexpected w rest)
  /-- The limit was crossed in this place. -/
  | tooDeep {rest : Input} : rest <:+ ts →
      SpeaksOf p ts (.nestingTooDeep p.limit (p.offset rest))
  /-- An integer does not fit. -/
  | overflow {text : String} {q : Nat} : ⟨.integer text, q⟩ ∈ ts →
      Text.int32OfText? text = none → SpeaksOf p ts (.integerOverflow text q)

/-- **What a step reaches from an input**: the rest of it, or a fault that speaks
of a place in it. -/
inductive Parser.Reaches {α : Type} (p : Parser) (ts : Input) : Except Fault (α × Input) → Prop
  /-- It takes something from the front, if anything. -/
  | ok (a : α) {rest : Input} : rest <:+ ts → Reaches p ts (.ok (a, rest))
  /-- It finds a fault. -/
  | error {f : Fault} : p.SpeaksOf ts f → Reaches p ts (.error f)

namespace Parser

variable {α β : Type} {p : Parser} {ts us : Input}

/-- What a fault tells of the end of an input it tells of the whole. -/
theorem SpeaksOf.of_suffix {f : Fault} (h : p.SpeaksOf us f) (hus : us <:+ ts) :
    p.SpeaksOf ts f := by
  cases h with
  | unexpected w hrest => exact .unexpected w (hrest.trans hus)
  | tooDeep hrest => exact .tooDeep (hrest.trans hus)
  | overflow hmem hbig => exact .overflow (hus.subset hmem) hbig

namespace Reaches

variable {r : Except Fault (α × Input)}

/-- What is reached from further on is reached from here. -/
theorem of_suffix (h : p.Reaches us r) (hus : us <:+ ts) : p.Reaches ts r := by
  cases h with
  | ok a hrest => exact .ok a (hrest.trans hus)
  | error hf => exact .error (hf.of_suffix hus)

/-- **A second step goes on from where the first one stops.** -/
theorem bind {g : α × Input → Except Fault (β × Input)} (h : p.Reaches ts r)
    (hg : ∀ a rest, rest <:+ ts → p.Reaches ts (g (a, rest))) : p.Reaches ts (r >>= g) := by
  cases h with
  | ok a hrest => exact hg a _ hrest
  | error hf => exact .error hf

end Reaches

/-- The step leaves no input, and its faults speak of places in it. -/
def Advances (p : Parser) (step : Parse α) : Prop := ∀ ts, p.Reaches ts (step ts)

variable (p) {step : Parse Expr} {inner : Option (Parse Expr)} {t : Located Lexeme} {k : Nat}

/-- A step behind the next lexeme. -/
theorem reaches_cons {step : Parse α} (h : p.Advances step) : p.Reaches (t :: ts) (step ts) :=
  (h ts).of_suffix (List.suffix_cons t ts)

/-- A node that is too deep is refused with the place of a lexeme that was read. -/
theorem reaches_bounded (e : Expr) {g : Expr → Except Fault (β × Input)}
    (hg : ∀ e, p.Reaches (t :: ts) (g e)) :
    p.Reaches (t :: ts) (p.bounded t.offset e >>= g) := by
  unfold bounded
  split
  · exact hg e
  · exact .error (.tooDeep (List.suffix_refl (t :: ts)))

/-- A symbol that has to follow is there, or something else is. -/
theorem reaches_expect (s : Symbol) (w : Expected) (a : α) :
    p.Advances fun ts => p.expect s w ts >>= fun ts => .ok (a, ts) := by
  intro ts
  cases ts with
  | nil => exact .error (.unexpected w (List.suffix_refl _))
  | cons t ts =>
    simp only [expect]
    split
    · exact .ok a (List.suffix_cons t ts)
    · exact .error (.unexpected w (List.suffix_refl _))

/-! ## Chains -/

/-- A chain only goes forward if its operands do. -/
theorem advances_extend (hstep : p.Advances step) (n : Nat) (l : Expr) :
    p.Advances (p.extend k step n l) := by
  induction n generalizing l with
  | zero => exact fun ts => .ok l (List.suffix_refl ts)
  | succ n ih =>
    intro ts
    rw [extend]
    split
    next => exact .ok l (List.suffix_refl ts)
    next op q us ho =>
      obtain ⟨rfl, -⟩ := operatorAt_eq_some ho
      refine (p.reaches_cons hstep).bind fun r rest hrest => ?_
      exact p.reaches_bounded _ fun e => (ih e rest).of_suffix hrest

/-- And so does each rank: by induction on the rank. -/
theorem advances_ranked (hstep : p.Advances step) (k : Nat) : p.Advances (p.ranked step k) := by
  induction k with
  | zero => exact hstep
  | succ k ih =>
    intro ts
    refine (ih ts).bind fun l rest hrest => ?_
    exact (p.advances_extend ih p.size l rest).of_suffix hrest

/-- A whole expression only goes forward if its operands do. -/
theorem advances_expression (hstep : p.Advances step) : p.Advances (p.expression step) :=
  p.advances_ranked hstep Operator.topRank

/-! ## Arguments -/

/-- The arguments behind the first only go forward if each of them does. -/
theorem advances_moreArguments (hstep : p.Advances step) (n : Nat) :
    p.Advances (p.moreArguments step n) := by
  induction n with
  | zero => exact p.reaches_expect .rightParen .commaOrClosingParen []
  | succ n ih =>
    intro ts
    unfold moreArguments
    split
    next m q us hm =>
      obtain rfl := Nat.succ.inj hm
      refine (p.reaches_cons hstep).bind fun e rest hrest => ?_
      refine ((ih rest).of_suffix hrest).bind fun es rest' hrest' => ?_
      exact .ok (e :: es) hrest'
    next => exact p.reaches_expect .rightParen .commaOrClosingParen [] _

/-- And so do all arguments. -/
theorem advances_arguments (hstep : p.Advances step) : p.Advances (p.arguments step) := by
  intro ts
  unfold arguments
  split
  next q us => exact .ok [] (List.suffix_cons _ us)
  next =>
    refine (hstep ts).bind fun e rest hrest => ?_
    have hmore := (p.advances_moreArguments hstep p.size rest).of_suffix hrest
    exact hmore.bind fun es rest' hrest' => .ok (e :: es) hrest'

/-! ## Operands -/

/-- The step one level further down, if there is one. -/
def AdvancesInner (p : Parser) (inner : Option (Parse α)) : Prop :=
  ∀ step, inner = some step → p.Advances step

/-- What is made of a nested step goes forward if the step does. -/
theorem AdvancesInner.map {f : Parse Expr → Parse α} (h : p.AdvancesInner inner)
    (hf : ∀ step, p.Advances step → p.Advances (f step)) : p.AdvancesInner (inner.map f) := by
  intro g hg
  obtain ⟨step, hstep, rfl⟩ := Option.map_eq_some_iff.1 hg
  exact hf step (h step hstep)

/-- What is nested goes forward, and the fault of the limit is at an offset of the
input. -/
theorem advances_nested {inner : Option (Parse α)} (h : p.AdvancesInner inner) :
    p.Advances (p.nested inner) := by
  intro ts
  cases inner with
  | none => exact .error (.tooDeep (List.suffix_refl ts))
  | some step => exact h step rfl ts

/-- **An operand only goes forward** if those that are nested in it do. -/
theorem advances_operand (h : p.AdvancesInner inner) : p.Advances (p.operand inner) := by
  intro ts
  unfold operand
  split
  next => exact .error (.unexpected _ (List.suffix_refl []))
  next s q us =>
    split
    next op _ =>
      refine (p.reaches_cons (p.advances_nested h)).bind fun x rest hrest => ?_
      exact p.reaches_bounded (t := ⟨.symbol s, q⟩) _ fun e => .ok e hrest
    next =>
      split
      next =>
        have hexpr := p.advances_nested (h.map p fun _ => p.advances_expression)
        refine (p.reaches_cons hexpr).bind fun e rest hrest => ?_
        exact (p.reaches_expect .rightParen .closingParen e rest).of_suffix hrest
      next => exact .error (.unexpected _ (List.suffix_refl _))
  -- a call takes the name and the parenthesis before anything in it can fail
  next name q t us =>
    have hargs := p.advances_nested (h.map p fun _ hstep =>
      p.advances_arguments (p.advances_expression hstep))
    refine ((p.reaches_cons hargs).of_suffix (List.suffix_cons _ _)).bind fun es rest hrest => ?_
    exact p.reaches_bounded (t := ⟨.identifier name, q⟩) _ fun e => .ok e hrest
  next name q us _ => exact .ok _ (List.suffix_cons _ us)
  next text q us => exact .ok _ (List.suffix_cons _ us)
  next text q us =>
    split
    next n _ => exact .ok _ (List.suffix_cons _ us)
    next hbig => exact .error (.overflow List.mem_cons_self hbig)
  next text q us => exact .ok _ (List.suffix_cons _ us)

/-- **An operand is read forward**, whatever levels of nesting are left. -/
theorem advances_unary (n : Nat) : p.Advances (p.unary n) := by
  induction n with
  | zero => exact p.advances_operand fun step h => by cases h
  | succ n ih => exact p.advances_operand fun step h => Option.some.inj h ▸ ih

/-- **A parse that fails speaks of a place in its input.** -/
theorem speaksOf_of_whole {f : Fault} (h : p.whole ts = .error f) : p.SpeaksOf ts f := by
  have hexpr := p.advances_expression (p.advances_unary p.limit) ts
  rw [whole] at h
  generalize p.expression (p.unary p.limit) ts = r at h hexpr
  cases hexpr with
  | error hf =>
    obtain rfl := Except.error.inj h
    exact hf
  | @ok e rest hrest =>
    cases rest with
    | nil => cases h
    | cons t rest =>
      obtain rfl := Except.error.inj h
      exact .unexpected .operatorOrEnd hrest

end Parser

/-! ## Sources and their stages -/

/-- What is left of a stream starts with one of its tokens. -/
theorem Stream.exists_token_of_suffix {s : Stream} {rest : Input} (h : rest <:+ s.lexemes) :
    ∃ t ∈ s.toTokens, t.val = rest.head?.map (·.val) ∧
      t.offset = (rest.head?.map (·.offset)).getD s.stop := by
  cases rest with
  | nil => exact ⟨⟨none, s.stop⟩, List.mem_append_right _ List.mem_cons_self, rfl, rfl⟩
  | cons l rest =>
    have hl : l ∈ s.lexemes := h.subset List.mem_cons_self
    exact ⟨_, List.mem_append_left _ (List.mem_map_of_mem hl), rfl, rfl⟩

/-- A scan lets no integer pass that does not fit. -/
theorem Stream.int32OfText?_ne_none {source : String} {s : Stream} {text : String} {q : Nat}
    (h : Stream.ofSource source = .ok s) (hmem : ⟨.integer text, q⟩ ∈ s.lexemes) :
    Text.int32OfText? text ≠ none := by
  have hspells := Stream.ofSource_iff_spells.1 ⟨s, h, rfl⟩
  obtain ⟨-, -, hfits⟩ := hspells.wellSpelled _ (List.mem_map_of_mem hmem)
  intro hnone
  rw [hnone] at hfits
  cases hfits

namespace Expr

variable {limit : Nat} {source : String} {s : Stream} {f : Fault}

/-- **A fault that a parser finds in a source is one of the grammar**, and speaks of
one of the tokens. -/
theorem exists_token_of_fault (hs : Stream.ofSource source = .ok s)
    (hf : ofStream limit s = .error f) :
    f.stage = .grammar ∧ ∃ t ∈ s.toTokens, f.offset? = some t.offset ∧
      ((∃ w, f = .unexpectedToken t.kind w t.offset ∧ t.kind ≠ .endOfInput) ∨
        (∃ w, f = .unexpectedEnd w source.length ∧ t.kind = .endOfInput) ∨
        f = .nestingTooDeep limit t.offset) := by
  cases Parser.speaksOf_of_whole _ hf with
  | @unexpected w rest hrest =>
    obtain ⟨⟨v, q⟩, ht, rfl, rfl⟩ := Stream.exists_token_of_suffix hrest
    cases rest with
    | nil =>
      refine ⟨rfl, _, ht, rfl, .inr (.inl ⟨w, ?_, rfl⟩)⟩
      rw [← Stream.stop_of_ofSource hs]
      rfl
    | cons l rest => exact ⟨rfl, _, ht, rfl, .inl ⟨w, rfl, l.val.kind_ne_endOfInput⟩⟩
  | @tooDeep rest hrest =>
    obtain ⟨⟨v, q⟩, ht, rfl, rfl⟩ := Stream.exists_token_of_suffix hrest
    refine ⟨rfl, _, ht, ?_, .inr (.inr ?_)⟩
    · cases rest <;> rfl
    · cases rest <;> rfl
  | overflow hmem hbig => exact absurd hbig (Stream.int32OfText?_ne_none hs hmem)

/-- **A fault lies in its stage.** A source cannot be cut into tokens if and only if
its parse ends in a lexical fault, and that is the same one. Every other fault of a
parse is one of the grammar, and it speaks of one of the tokens, no two of which
start in one place: it names the kind of this token, which is not the end of input;
or this is the end of input, behind the last character; or the limit was crossed
there. -/
theorem fault_lies_in_its_stage (o : Options) (source : String) :
    (∀ f, Stream.ofSource source = .error f ↔
        (parse o source).result = .error f ∧ f.stage = .lexical) ∧
      ∀ f, (parse o source).result = .error f → f.stage ≠ .lexical →
        f.stage = .grammar ∧
          ∃ s, Stream.ofSource source = .ok s ∧
            s.toTokens.Pairwise (fun t u => t.offset < u.offset) ∧
            ∃ t ∈ s.toTokens, f.offset? = some t.offset ∧
              ((∃ w, f = .unexpectedToken t.kind w t.offset ∧ t.kind ≠ .endOfInput) ∨
                (∃ w, f = .unexpectedEnd w source.length ∧ t.kind = .endOfInput) ∨
                f = .nestingTooDeep o.maxDepth t.offset) := by
  have hparse : (parse o source).result = Stream.ofSource source >>= ofStream o.maxDepth := rfl
  rw [hparse]
  cases hs : Stream.ofSource source with
  | error g =>
    -- the source was not cut, and no parser runs
    have hlexical := Stream.stage_of_ofSource hs
    have hfault : (Except.error g >>= ofStream o.maxDepth) = .error g := rfl
    rw [hfault]
    refine ⟨fun f => ⟨fun hf => ?_, fun hf => ?_⟩, fun f hf hstage => ?_⟩
    · obtain rfl := Except.error.inj hf
      exact ⟨rfl, hlexical⟩
    · rw [Except.error.inj hf.1]
    · obtain rfl := Except.error.inj hf
      exact absurd hlexical hstage
  | ok s =>
    -- the source was cut, and every fault from here on is one of the grammar
    have hparsed : (Except.ok s >>= ofStream o.maxDepth) = ofStream o.maxDepth s := rfl
    rw [hparsed]
    refine ⟨fun f => ⟨nofun, fun ⟨hf, hlexical⟩ => ?_⟩, fun f hf _ => ?_⟩
    · rw [(exists_token_of_fault hs hf).1] at hlexical
      cases hlexical
    · obtain ⟨hgrammar, htoken⟩ := exists_token_of_fault hs hf
      exact ⟨hgrammar, s, rfl, Cursor.pairwise_offset hs, htoken⟩

/-- Where an argument is missing, the closing parenthesis is at fault. -/
theorem fault_of_missing_argument_lies_in_its_stage :
    (parse {} "min(1,)").result =
        .error (.unexpectedToken (.symbol .rightParen) .operand 6) ∧
      ∃ s, Stream.ofSource "min(1,)" = .ok s ∧
        ∃ t ∈ s.toTokens, t.kind = .symbol .rightParen ∧ t.offset = 6 := by
  obtain ⟨-, s, hs, -, t, ht, hoffset, hsays⟩ :=
    (fault_lies_in_its_stage {} "min(1,)").2 _ rfl nofun
  refine ⟨rfl, s, hs, t, ht, ?_, (Option.some.inj hoffset).symm⟩
  rcases hsays with ⟨w, h, -⟩ | ⟨w, h, -⟩ | h
  · exact (Fault.unexpectedToken.inj h).1.symm
  · cases h
  · cases h

end Expr
end Enablement
