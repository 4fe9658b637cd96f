import Enablement.Proofs.Condition.Separation
import Enablement.Proofs.Eval.Membership

/-!
# Conditions — asking for the colour mode

Expressions know of modes by their names alone: the variable for the mode has
a text for its value, and the function `in` looks for this text among others.
For texts in ASCII this finds what the table of modes finds
(`Mode.sameText_name_iff`), though the one comparison is of upper-case forms
and the other of small ones. So a source that asks whether the mode is one of
some names says of each document what the table says (`Mode.isAmong`).
-/

namespace Enablement

namespace Expr

/-- Arguments after the first are written each behind a comma and a blank. -/
theorem renderMore_eq_intercalate {es : List Expr} (hes : es ≠ []) :
    renderMore es = ", " ++ ", ".intercalate (es.map render) := by
  induction es with
  | nil => exact absurd rfl hes
  | cons e es ih =>
    cases es with
    | nil => simp [renderMore]
    | cons e' es =>
      rw [renderMore, ih (by simp)]
      simp only [List.map_cons, String.intercalate_cons_cons, String.append_assoc]

end Expr

namespace Mode

variable {names : List String}

/-- The source that asks whether the mode of a document is one of some names. -/
def isAmong (names : List String) : String :=
  "in(PSHOP_ImageMode, " ++ ", ".intercalate (names.map fun t => "\"" ++ t ++ "\"") ++ ")"

/-- The expression that this source spells. -/
def isAmongTree (names : List String) : Expr :=
  .call "in" (.param Variable.imageMode.name :: (names.map Value.string).map .const)

/-- The tree of the test is written as the test is. -/
theorem render_isAmongTree (hnames : names ≠ []) : (isAmongTree names).render = isAmong names := by
  have hcall (es : List Expr) : (Expr.call "in" (.param Variable.imageMode.name :: es)).render =
      "in" ++ "(" ++ ("PSHOP_ImageMode" ++ Expr.renderMore es) ++ ")" := by
    simp only [Expr.render, Expr.renderAll, Variable.name]
  have htexts : ((names.map Value.string).map Expr.const).map Expr.render =
      names.map fun t => "\"" ++ t ++ "\"" := by
    simp only [List.map_map, Function.comp_def, Expr.render, Value.render]
  have hmore : Expr.renderMore ((names.map Value.string).map .const) =
      ", " ++ ", ".intercalate (names.map fun t => "\"" ++ t ++ "\"") := by
    rw [Expr.renderMore_eq_intercalate (by simpa using hnames), htexts]
  have hjoin (texts : String) : "in" ++ "(" ++ ("PSHOP_ImageMode" ++ (", " ++ texts)) ++ ")" =
      "in(PSHOP_ImageMode, " ++ texts ++ ")" := String.toList_inj.1 (by simp)
  rw [isAmongTree, hcall, hmore]
  exact hjoin _

/-- The expression compares the name of the mode with each of the names. -/
theorem eval_isAmongTree (s : Snapshot) (hnames : names ≠ []) :
    Expr.eval s (isAmongTree names) =
      .ok (.boolean (names.any (Text.sameText s.mode.name))) := by
  have hname : Builtin.ofName? "in" = some .member := by decide +kernel
  have hcs : (names.map Value.string).map Expr.const ≠ [] := by simpa using hnames
  rw [isAmongTree, Expr.eval_member s _ hname hcs, Expr.eval_param, Snapshot.lookup_name]
  change ((Builtin.anySame (.string s.mode.name) _).result.map _) = _
  rw [Expr.result_anySame_const, List.any_map]
  rfl

/-- It can be written, and read back. -/
theorem isFaithful_isAmongTree (h : ∀ t ∈ names, '"' ∉ t.toList) :
    (isAmongTree names).BuiltFrom Value.IsFaithful IsName := by
  have hin : IsName "in" :=
    ⟨⟨'i', ['n'], rfl, rfl, List.all_eq_true.1 rfl⟩, by unfold IsTruthWord; decide⟩
  refine .call hin (List.forall_mem_cons.2 ⟨.param Variable.imageMode.isName_name, ?_⟩)
  rw [List.forall_mem_map, List.forall_mem_map]
  exact fun t ht => .const ⟨h t ht, nofun⟩

/-- It is a call on leaves, so its depth is 2 however many names there are. -/
theorem depth_isAmongTree (names : List String) : (isAmongTree names).depth = 2 := by
  have hargs : Expr.depthAll ((names.map Value.string).map .const) ≤ 1 := by
    rw [Expr.depthAll_le_iff, List.forall_mem_map]
    exact fun v _ => Nat.le_refl 1
  rw [isAmongTree, Expr.depth, Expr.depthAll, Expr.depth]
  omega

/-- **A source asks for the mode as the table of modes has it.** Of a document it says
whether the mode that some of the names stands for is that of the document. -/
theorem evaluateSource_isAmong (s : Snapshot) (names : List String) (hnames : names ≠ [])
    (hascii : ∀ t ∈ names, ∀ c ∈ t.toList, c.toNat < 0x80) (hquote : ∀ t ∈ names, '"' ∉ t.toList) :
    evaluateSource (isAmong names) s = .ok (decide (∃ t ∈ names, ofName? t = some s.mode)) := by
  have hdepth : 2 * (isAmongTree names).depth + 1 ≤ Options.maxDepth {} := by
    rw [depth_isAmongTree]
    decide
  have hfound : names.any (Text.sameText s.mode.name) = true ↔
      ∃ t ∈ names, ofName? t = some s.mode := by
    rw [List.any_eq_true]
    exact exists_congr fun t => and_congr_right fun ht => sameText_name_iff (hascii t ht)
  rw [← render_isAmongTree hnames, evaluateSource_render (isFaithful_isAmongTree hquote) hdepth,
    eval_isAmongTree s hnames]
  simp [Except.map, ← hfound]

/-- The name of the mode may be written in any case, and its tag alone is no name. -/
theorem evaluateSource_isAmong_names_and_tags :
    evaluateSource "in(PSHOP_ImageMode, \"LabMode\", \"rgbMODE\")"
        ⟨640, 480, .rgb, false, 3, 3, false, true⟩ = .ok true ∧
      evaluateSource "in(PSHOP_ImageMode, \"RGB\", \"RGB48Mode\", \"\")"
        ⟨640, 480, .rgb, false, 3, 3, false, true⟩ = .ok false := by
  have hnames := evaluateSource_isAmong ⟨640, 480, .rgb, false, 3, 3, false, true⟩
    ["LabMode", "rgbMODE"] (by simp) (by simp) (by simp)
  have htags := evaluateSource_isAmong ⟨640, 480, .rgb, false, 3, 3, false, true⟩
    ["RGB", "RGB48Mode", ""] (by simp) (by simp) (by simp)
  have hfound : decide (∃ t ∈ ["LabMode", "rgbMODE"], ofName? t = some .rgb) = true := by
    decide +kernel
  have hmissed : decide (∃ t ∈ ["RGB", "RGB48Mode", ""], ofName? t = some .rgb) = false := by
    decide +kernel
  rw [hfound] at hnames
  rw [hmissed] at htags
  exact ⟨hnames, htags⟩

end Mode
end Enablement
