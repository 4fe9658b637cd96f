import Enablement.Condition
import Enablement.Proofs.Expr.Rereading

/-!
# Conditions — telling documents apart

A condition sees of a document what its snapshot holds, and all of it. For
every variable and every value that it may have, a source asks whether it has
this value (`Variable.isValue`), and snapshots that answer all these questions
alike are one snapshot. So verdicts may be remembered by snapshot: no two
documents that any source tells apart have one, and no two documents that none
tells apart have two (`eq_iff_evaluateSource_eq`).
-/

namespace Enablement

/-! ## Modes and variables by their names -/

namespace Mode

/-- The names of modes are ASCII. -/
theorem toNat_lt_of_mem_name {m : Mode} : ∀ c ∈ m.name.toList, c.toNat < 0x80 := by
  cases m <;> simp [name]

/-- **An ASCII text names a mode in an expression exactly if it does in the table of
modes**: the two comparisons without case find the same. -/
theorem sameText_name_iff {m : Mode} {t : String} (ht : ∀ c ∈ t.toList, c.toNat < 0x80) :
    Text.sameText m.name t = true ↔ ofName? t = some m := by
  constructor
  · intro h
    have hname : Text.foldName m.name = Text.foldName t :=
      Text.foldName_eq_of_upperText toNat_lt_of_mem_name ht (Text.sameText_iff.1 h)
    have hfound : ofName? m.name = ofName? t := by simp only [ofName?, Text.sameName, hname]
    rw [← hfound, ofName?_name]
  · intro h
    have hname : Text.sameName m.name t = true :=
      List.find?_some (p := fun n : Mode => Text.sameName n.name t) h
    exact Text.sameText_iff.2 (Text.upperText_eq_of_foldName (Text.sameName_iff.1 hname))

/-- No two modes have one name, also where case is ignored. -/
theorem eq_of_sameText {m n : Mode} (h : Text.sameText m.name n.name = true) : m = n := by
  have hfound := (sameText_name_iff toNat_lt_of_mem_name).1 h
  rw [ofName?_name] at hfound
  exact (Option.some.inj hfound).symm

end Mode

namespace Variable

variable {x : Variable}

/-- A variable is found by its name. -/
@[simp] theorem ofName?_name (x : Variable) : ofName? x.name = some x := by
  cases x <;> decide +kernel

/-- A source can name each variable. -/
theorem isName_name (x : Variable) : IsName x.name := by
  have hpart : x.name.toList.tail.all isWordPart = true := by cases x <;> rfl
  have hword : IsWord x.name :=
    ⟨'P', x.name.toList.tail, by cases x <;> rfl, rfl, List.all_eq_true.1 hpart⟩
  exact ⟨hword, by unfold IsTruthWord; cases x <;> decide +kernel⟩

/-- The expression that asks whether a variable has a value. -/
def isValue (x : Variable) (v : Value) : Expr := .binary .eq (.param x.name) (.const v)

end Variable

namespace Snapshot

variable {s t : Snapshot} {x : Variable}

/-- A variable is found under its own name. -/
@[simp] theorem lookup_name (s : Snapshot) (x : Variable) : s.lookup x.name = s.get x := by
  rw [lookup, Variable.ofName?_name]

/-- No variable of a document is the mark of an unbound one. -/
theorem kind_get_ne_undefined (s : Snapshot) (x : Variable) : (s.get x).kind ≠ .undefined := by
  rw [kind_get]
  cases x <;> nofun

/-- A source can write whatever value a variable has. -/
theorem isFaithful_get (s : Snapshot) (x : Variable) : (s.get x).IsFaithful where
  legible := by
    cases x with
    | imageMode => cases hmode : s.mode <;> simp [get, Value.IsLegible, hmode, Mode.name]
    | _ => trivial
  unbound name hname := absurd (congrArg Value.kind hname) (s.kind_get_ne_undefined x)

/-- **Snapshots whose variables all have the same values are equal.** Every member
of a snapshot is the value of a variable. -/
theorem eq_of_same_get (h : ∀ x, (t.get x).same (s.get x) = true) : s = t := by
  have hmode : t.mode = s.mode := Mode.eq_of_sameText (h .imageMode)
  have hwidth : t.width = s.width := beq_iff_eq.1 (h .imageWidth)
  have hheight : t.height = s.height := beq_iff_eq.1 (h .imageHeight)
  have htarget : t.targetChannels = s.targetChannels := beq_iff_eq.1 (h .numTargetChannels)
  have htrue : t.trueChannels = s.trueChannels := beq_iff_eq.1 (h .numTrueChannels)
  have htransparency : t.transparency = s.transparency := beq_iff_eq.1 (h .hasTransparencyMask)
  have hselection : t.selection = s.selection := beq_iff_eq.1 (h .hasSelectionMask)
  have hcomposite : t.composite = s.composite := beq_iff_eq.1 (h .isTargetComposite)
  cases s
  cases t
  simp_all

end Snapshot

/-! ## Questions -/

/-- **A source that writes an expression has its verdict**, if that is not too deep. -/
theorem evaluateSource_render {e : Expr} (h : e.BuiltFrom Value.IsFaithful IsName)
    (hdepth : 2 * e.depth + 1 ≤ Options.maxDepth {}) (s : Snapshot) :
    evaluateSource e.render s = (e.eval s).map fun v => decide (v = .boolean true) := by
  rw [evaluateSource, (h.mono fun _ hv => hv.legible).ofSource_render hdepth]
  change (e.reread.evaluate s).result = _
  rw [Expr.result_evaluate, Expr.eval_reread h]

namespace Variable

variable {v : Value}

/-- The test whether a variable has a value tells whether it has it in a document. -/
theorem eval_isValue (x : Variable) (t : Snapshot) (hv : v.kind ≠ .undefined) :
    Expr.eval t (x.isValue v) = .ok (.boolean ((t.get x).same v)) := by
  rw [isValue, Expr.eval_binary, Expr.eval_param, Expr.eval_const, Snapshot.lookup_name]
  exact BinaryOp.apply_eq (t.kind_get_ne_undefined x) hv

/-- **A source asks whether a variable has a value**, and its verdict is the answer. -/
theorem evaluateSource_isValue (x : Variable) (hv : v.IsFaithful) (hkind : v.kind ≠ .undefined)
    (t : Snapshot) : evaluateSource (x.isValue v).render t = .ok ((t.get x).same v) := by
  have hbuilt : (x.isValue v).BuiltFrom Value.IsFaithful IsName :=
    .binary (.param x.isName_name) (.const hv)
  have hdepth : 2 * (x.isValue v).depth + 1 ≤ Options.maxDepth {} := by
    simp [isValue, Expr.depth]
  rw [evaluateSource_render hbuilt hdepth, x.eval_isValue t hkind]
  cases (t.get x).same v <;> rfl

end Variable

/-- **A snapshot is what sources see of a document**: two snapshots are equal if and
only if every source has the same verdict on both, or the same fault. -/
theorem eq_iff_evaluateSource_eq (s t : Snapshot) :
    s = t ↔ ∀ source, evaluateSource source s = evaluateSource source t := by
  refine ⟨fun h source => by rw [h], fun hsame => Snapshot.eq_of_same_get fun x => ?_⟩
  -- the source that asks for the value on `s` is true of `s`, and so of `t`
  have hvalue := s.kind_get_ne_undefined x
  have hask := x.evaluateSource_isValue (s.isFaithful_get x) hvalue
  have hverdict := hsame (x.isValue (s.get x)).render
  rw [hask, hask, Value.same_self hvalue] at hverdict
  exact (Except.ok.inj hverdict).symm

end Enablement
