import Enablement.Condition
import Enablement.Proofs.Eval.Likeness
import Enablement.Proofs.Expr.Relabelling
import Enablement.Proofs.Expr.Written
import Enablement.Proofs.Token.Lowercase
import Enablement.Proofs.Token.Tiling

/-!
# Conditions — what makes no difference

Two sources that hold the same lexemes with other blanks around them have one
expression and one outcome (`layout_makes_no_difference`). What a fault says
of its place is all that differs between them. And two sources that are the
same apart from the case of ASCII letters have one outcome
(`letter_case_makes_no_difference`), where the name of a function that does not
exist is told as it was written.
-/

namespace Enablement

/-! ## What a source comes to -/

/-- The verdict of a source on a document under options, or the first fault on
the way. -/
def Condition.outcome (o : Options) (source : String) (v : Snapshot) : Except Fault Bool :=
  (Condition.ofSource o source >>= fun c => c.evaluate v).result

/-- A condition is evaluated as its expression is. -/
theorem Condition.outcome_eq (o : Options) (source : String) (v : Snapshot) :
    outcome o source v = (Expr.parse o source).result >>= fun e => (e.evaluate v).result := by
  rw [outcome, Logged.result_bind, ofSource, Logged.result_bind]
  cases (Expr.parse o source).result <;> rfl

/-! ## Layout -/

/-- A fault without its place. -/
def Fault.unplaced (f : Fault) : Fault := f.mapPlace fun _ => 0

/-- What a token says, wherever it stands. -/
def Token.said (t : Token) : Kind × Option String := (t.kind, t.text?)

/-- A lexeme is known by its kind and its text. -/
theorem Lexeme.eq_of_kind_of_text? {l m : Lexeme} (hkind : l.kind = m.kind)
    (htext : l.text? = m.text?) : l = m := by
  cases l <;> cases m <;> simp_all [kind, text?]

/-- What a token says is its lexeme, or that the input ends. -/
theorem Token.val_eq_of_said {t u : Token} (h : t.said = u.said) : t.val = u.val := by
  obtain ⟨hkind, htext⟩ := Prod.mk.inj h
  obtain ⟨_ | l, p⟩ := t <;> obtain ⟨_ | m, q⟩ := u
  · rfl
  · exact absurd hkind.symm m.kind_ne_endOfInput
  · exact absurd hkind l.kind_ne_endOfInput
  · exact congrArg some (Lexeme.eq_of_kind_of_text? hkind htext)

namespace Stream

/-- The source of its lexemes with one blank between neighbours. -/
def joined (s : Stream) : String := " ".intercalate (s.lexemes.map (·.val.spelling))

/-- Two streams with the same lexemes say the same, wherever the lexemes stand. -/
theorem said_toTokens {s t : Stream} (h : s.lexemes.map (·.val) = t.lexemes.map (·.val)) :
    s.toTokens.map Token.said = t.toTokens.map Token.said := by
  have hsaid (s : Stream) : s.toTokens.map Token.said =
      (s.lexemes.map (·.val)).map (fun l => (l.kind, l.text?)) ++ [(.endOfInput, none)] := by
    rw [toTokens, List.map_append, List.map_map, List.map_map]
    rfl
  rw [hsaid, hsaid, h]

/-- And two lists of tokens that say the same make streams with the same lexemes. -/
theorem vals_ofTokensFrom {ts us : List Token} (h : ts.map Token.said = us.map Token.said)
    (stop stop' : Nat) :
    (ofTokensFrom stop ts).lexemes.map (·.val) = (ofTokensFrom stop' us).lexemes.map (·.val) := by
  -- a list without an end of input is given one behind its last token, so at any place
  induction ts generalizing us stop stop' with
  | nil =>
    obtain rfl := List.map_eq_nil_iff.1 h.symm
    rfl
  | cons t ts ih =>
    obtain ⟨u, us, rfl, hval, hrest⟩ := List.map_eq_cons_iff.1 h.symm
    obtain ⟨l, p⟩ := t
    obtain ⟨m, q⟩ := u
    obtain rfl : l = m := (Token.val_eq_of_said hval).symm
    cases l with
    | none => rfl
    | some l => exact congrArg (l :: ·) (ih hrest.symm (p + 1) (q + 1))

end Stream

/-- Lexemes with one blank between neighbours are spelled. -/
theorem spells_intercalate {ls : List Lexeme} (h : ∀ l ∈ ls, l.WellSpelled) :
    Spells (" ".intercalate (ls.map Lexeme.spelling)).toList ls := by
  induction ls with
  | nil => exact .blanks (by simp)
  | cons l ls ih =>
    obtain ⟨hl, hls⟩ := List.forall_mem_cons.1 h
    cases ls with
    | nil =>
      have hlast := Spells.cons hl (separated_nil.endsBefore l) (.blanks (by simp))
      rwa [List.append_nil] at hlast
    | cons m ls =>
      have hblank : Separated (' ' :: (" ".intercalate ((m :: ls).map Lexeme.spelling)).toList) :=
        fun c hc => .inl (Option.some.inj hc).symm
      have hmore := Spells.cons hl (hblank.endsBefore l) (ih hls).blank
      rwa [List.map_cons, List.map_cons, String.intercalate_cons_cons, ← List.map_cons,
        String.toList_append, String.toList_append, List.append_assoc]

/-- Every text as it is, and every place the same. -/
def unplacing : Relabelling where
  text := id
  place := fun _ => 0
  foldName_text := fun _ => rfl

/-- To take the places out of a result is to take them out of its fault. -/
theorem carry_unplacing (r : Except Fault Expr) :
    carry unplacing.expr unplacing.fault r = r.mapError Fault.unplaced := by
  cases r with
  | error f => rfl
  | ok e => exact congrArg Except.ok e.mapText_id

/-- Without places, two streams with the same lexemes are the same. -/
theorem stream_unplacing {s t : Stream} (h : s.lexemes.map (·.val) = t.lexemes.map (·.val)) :
    unplacing.stream s = unplacing.stream t := by
  have hinput (ts : Input) :
      unplacing.input ts = (ts.map (·.val)).map fun l => ⟨l, 0⟩ := by
    rw [List.map_map]
    refine List.map_congr_left fun t _ => ?_
    rw [Relabelling.lexeme, unplacing, Lexeme.mapText_id]
    rfl
  rw [Relabelling.stream, Relabelling.stream, hinput, hinput, h]
  rfl

/-- **Where lexemes stand is nothing to a parse** but for the places of faults. -/
theorem Expr.ofStream_unplaced (limit : Nat) {s t : Stream}
    (h : s.lexemes.map (·.val) = t.lexemes.map (·.val)) :
    (ofStream limit s).mapError Fault.unplaced = (ofStream limit t).mapError Fault.unplaced := by
  rw [← carry_unplacing, ← carry_unplacing, ← Relabelling.ofStream_stream,
    ← Relabelling.ofStream_stream, stream_unplacing h]

/-- What follows a result depends on the place of its fault as the result does. -/
theorem bind_unplaced {α β : Type} {r r' : Except Fault α}
    (h : r.mapError Fault.unplaced = r'.mapError Fault.unplaced) (k : α → Except Fault β) :
    (r >>= k).mapError Fault.unplaced = (r' >>= k).mapError Fault.unplaced := by
  cases r with
  | error f =>
    cases r' with
    | error g => exact congrArg Except.error (Except.error.inj h)
    | ok b => cases h
  | ok a =>
    cases r' with
    | error g => cases h
    | ok b => rw [Except.ok.inj h]

/-- Sources that hold the same lexemes have one parse, but for the place of a fault. -/
theorem Expr.parse_unplaced (o : Options) {a b : String} {ls : List Lexeme}
    (ha : Spells a.toList ls) (hb : Spells b.toList ls) :
    (parse o a).result.mapError Fault.unplaced = (parse o b).result.mapError Fault.unplaced := by
  obtain ⟨s, hs, hvals⟩ := Stream.ofSource_iff_spells.2 ha
  obtain ⟨t, ht, hvals'⟩ := Stream.ofSource_iff_spells.2 hb
  rw [parse, parse, ofSource, ofSource, hs, ht]
  exact ofStream_unplaced o.maxDepth (hvals.trans hvals'.symm)

/-- And one outcome. -/
theorem Condition.outcome_unplaced (o : Options) {a b : String} {ls : List Lexeme}
    (ha : Spells a.toList ls) (hb : Spells b.toList ls) (v : Snapshot) :
    (outcome o a v).mapError Fault.unplaced = (outcome o b v).mapError Fault.unplaced := by
  rw [outcome_eq, outcome_eq]
  exact bind_unplaced (Expr.parse_unplaced o ha hb) _

/-- The source of the same lexemes with one blank between neighbours is cut into tokens
that say the same. -/
theorem Stream.exists_ofSource_joined {source : String} {s : Stream}
    (hs : Stream.ofSource source = .ok s) :
    ∃ t, Stream.ofSource s.joined = .ok t ∧
      t.toTokens.map Token.said = s.toTokens.map Token.said := by
  -- what a scan gives is well spelled, so it may be written again
  have hspells : Spells source.toList (s.lexemes.map (·.val)) :=
    Stream.ofSource_iff_spells.1 ⟨s, hs, rfl⟩
  have hjoined := spells_intercalate hspells.wellSpelled
  rw [List.map_map] at hjoined
  obtain ⟨t, ht, hvals⟩ := Stream.ofSource_iff_spells.2 hjoined
  exact ⟨t, ht, said_toTokens hvals⟩

/-- **Layout makes no difference.** The lexemes of a source with one blank between
neighbours are cut into tokens that say the same. Tokens that say the same, wherever
they stand, are parsed as the same tree, or refused for the same reason but for its
place. So two sources that hold the same lexemes, with whatever blanks, have the
same tree and the same outcome on every document, but for the place of a fault. -/
theorem layout_makes_no_difference :
    (∀ source s, Stream.ofSource source = .ok s →
        ∃ t, Stream.ofSource s.joined = .ok t ∧
          t.toTokens.map Token.said = s.toTokens.map Token.said) ∧
      (∀ (o : Options) ts us, ts.map Token.said = us.map Token.said →
        (Expr.ofTokens o.maxDepth ts).mapError Fault.unplaced =
          (Expr.ofTokens o.maxDepth us).mapError Fault.unplaced) ∧
      ∀ (o : Options) (a b : String) ls, Spells a.toList ls → Spells b.toList ls →
        (Expr.parse o a).result.mapError Fault.unplaced =
            (Expr.parse o b).result.mapError Fault.unplaced ∧
          ∀ v, (Condition.outcome o a v).mapError Fault.unplaced =
            (Condition.outcome o b v).mapError Fault.unplaced := by
  refine ⟨fun source s hs => Stream.exists_ofSource_joined hs, fun o ts us h => ?_, ?_⟩
  · exact Expr.ofStream_unplaced o.maxDepth (Stream.vals_ofTokensFrom h 0 0)
  · intro o a b ls ha hb
    exact ⟨Expr.parse_unplaced o ha hb, Condition.outcome_unplaced o ha hb⟩

/-- Blanks within a text stay, and those around it may come and go. -/
theorem layout_around_text_makes_no_difference :
    (∃ t, Stream.ofSource "\"a  ==\" == x" = .ok t ∧ t.toTokens.map Token.said =
        [(.string, some "a  =="), (.symbol .eq, none), (.identifier, some "x"),
          (.endOfInput, none)]) ∧
      ∀ v, (Condition.outcome {} "\"a  ==\"==x" v).mapError Fault.unplaced =
        (Condition.outcome {} "\"a  ==\" == x" v).mapError Fault.unplaced := by
  obtain ⟨hjoined, -, hblanks⟩ := layout_makes_no_difference
  refine ⟨hjoined "\"a  ==\"==x"
    ⟨[⟨.string "a  ==", 0⟩, ⟨.symbol .eq, 7⟩, ⟨.identifier "x", 9⟩], 10⟩ rfl, fun v => ?_⟩
  exact (hblanks {} _ _ [.string "a  ==", .symbol .eq, .identifier "x"]
    (Stream.ofSource_iff_spells.1 ⟨_, rfl, rfl⟩) (Stream.ofSource_iff_spells.1 ⟨_, rfl, rfl⟩)).2 v

/-! ## The case of letters -/

/-- A source in small letters spells the same tree with its texts in small letters,
or has the same fault. -/
theorem Expr.ofSource_lower (limit : Nat) (source : String) :
    ofSource limit (Text.lower source) = carry lowering.expr id (ofSource limit source) := by
  have hfault : lowering.fault = id := funext Fault.mapPlace_id
  rw [ofSource, ofSource, Stream.ofSource_lower]
  cases Stream.ofSource source with
  | error f => rfl
  | ok s =>
    have hstream := lowering.ofStream_stream limit s
    rwa [hfault] at hstream

/-- Sources that are the same apart from case spell trees that are, or have one fault. -/
theorem Expr.alike_ofSource (limit : Nat) {a b : String} (h : Text.lower a = Text.lower b) :
    Alike .uncased (fun e e' => lowering.expr e = lowering.expr e') (ofSource limit a)
      (ofSource limit b) := by
  have hlower := (ofSource_lower limit a).symm.trans ((congrArg _ h).trans (ofSource_lower limit b))
  generalize ofSource limit a = r at hlower
  generalize ofSource limit b = r' at hlower
  cases r with
  | error f =>
    cases r' with
    | error g =>
      rw [show f = g from Except.error.inj hlower]
      exact .error (.refl g)
    | ok e' => cases hlower
  | ok e =>
    cases r' with
    | error g => cases hlower
    | ok e' => exact .ok (Except.ok.inj hlower)

/-- Trees that are the same apart from case have alike results. -/
theorem Expr.alike_of_lowering {e e' : Expr} (h : lowering.expr e = lowering.expr e')
    (v : Snapshot) : Alike .uncased Eq (e.evaluate v).result (e'.evaluate v).result := by
  have hlower (e : Expr) :
      Alike .uncased Eq (e.evaluate v).result ((lowering.expr e).evaluate v).result :=
    alike_evaluate (alike_mapText (E := .uncased) (fun t => (Text.foldName_lower t).symm) v e)
  exact (hlower e).join (h ▸ hlower e')

/-- Sources that are the same apart from case have alike outcomes. -/
theorem Condition.alike_outcome (o : Options) {a b : String} (h : Text.lower a = Text.lower b)
    (v : Snapshot) : Alike .uncased Eq (outcome o a v) (outcome o b v) := by
  have hparse : Alike .uncased (fun e e' => lowering.expr e = lowering.expr e')
      (Expr.parse o a).result (Expr.parse o b).result := Expr.alike_ofSource o.maxDepth h
  have hcondition : Alike .uncased (fun c c' => lowering.expr c.tree = lowering.expr c'.tree)
      (ofSource o a).result (ofSource o b).result :=
    hparse.bind fun e e' he => .ok he
  refine hcondition.bind fun c c' hc => ?_
  rw [evaluate, evaluate]
  exact Expr.alike_of_lowering hc v

/-- **The case of letters makes no difference.** Two sources that are the same apart
from the case of ASCII letters, wherever these stand, have the same verdict on
every document, or the same fault, in which only the name of an unknown function
may differ, and only in the case of letters. -/
theorem letter_case_makes_no_difference (o : Options) (a b : String) (v : Snapshot)
    (h : Text.sameName a b = true) :
    (∃ verdict, Condition.outcome o a v = .ok verdict ∧ Condition.outcome o b v = .ok verdict) ∨
      ∃ f g, Condition.outcome o a v = .error f ∧ Condition.outcome o b v = .error g ∧
        (f = g ∨ ∃ m n, f = .unknownFunction m ∧ g = .unknownFunction n ∧
          Text.sameName m n = true) := by
  have hlower : Text.lower a = Text.lower b := Text.lower_eq_iff.2 (Text.sameName_iff.1 h)
  have houtcome := Condition.alike_outcome o hlower v
  generalize Condition.outcome o a v = r at houtcome
  generalize Condition.outcome o b v = r' at houtcome
  cases houtcome with
  | @ok verdict _ heq => exact .inl ⟨verdict, rfl, by rw [heq]⟩
  | error hfg =>
    refine .inr ⟨_, _, rfl, rfl, ?_⟩
    cases hfg with
    | refl => exact .inl rfl
    | unknownFunction hname => exact .inr ⟨_, _, rfl, rfl, Text.sameName_iff.2 hname⟩

/-- A mode is asked for in whatever case. -/
theorem letter_case_of_mode_makes_no_difference :
    Text.sameName "IN(pshop_imagemode, \"rgbMODE\")" "in(PSHOP_ImageMode, \"RGBMode\")" = true ∧
      ∃ verdict,
        Condition.outcome {} "IN(pshop_imagemode, \"rgbMODE\")"
            ⟨640, 480, .rgb, false, 3, 3, false, true⟩ = .ok verdict ∧
          Condition.outcome {} "in(PSHOP_ImageMode, \"RGBMode\")"
            ⟨640, 480, .rgb, false, 3, 3, false, true⟩ = .ok verdict := by
  have hsame : Text.sameName "IN(pshop_imagemode, \"rgbMODE\")"
      "in(PSHOP_ImageMode, \"RGBMode\")" = true := by decide
  refine ⟨hsame, ?_⟩
  rcases letter_case_makes_no_difference {} _ _ ⟨640, 480, .rgb, false, 3, 3, false, true⟩ hsame
    with hverdict | ⟨f, g, hf, -⟩
  · exact hverdict
  · have hrun : Condition.outcome {} "IN(pshop_imagemode, \"rgbMODE\")"
        ⟨640, 480, .rgb, false, 3, 3, false, true⟩ = .ok true := by rfl
    rw [hrun] at hf
    cases hf

end Enablement
