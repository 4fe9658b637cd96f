import Enablement.Proofs.Eval.Steps

/-!
# Evaluation — looking for a value among others

The function `in` goes through its candidates from left to right and asks of
each what the operator `==` asks of two operands. What ends the search is a
candidate that `==` finds equal, or one that ends in a fault
(`Expr.Settles`); all before it are passed over and all behind it are left
alone. An unbound variable is looked for nowhere, as a mark is equal to
nothing.
-/

namespace Enablement

/-- No value is the same as a mark. -/
@[simp] theorem Value.same_undefined (v : Value) (name : String) :
    v.same (.undefined name) = false := by
  cases v <;> rfl

/-- **One step of the search**: it ends in the fault of the candidate, or with a value
that is the same, or goes on. -/
theorem Builtin.result_anySame_cons (v : Value) (c : Logged Value) (cs : List (Logged Value)) :
    (anySame v (c :: cs)).result =
      c.result >>= fun w => if v.same w = true then .ok true else (anySame v cs).result := by
  rw [anySame, Logged.result_bind]
  refine bind_congr fun w => ?_
  rw [isHit_eq_same]
  split <;> rfl

namespace Expr

variable {s : Snapshot} {x c : Expr} {cs us ws : List Expr} {name : String} {v w : Value}

/-! ## What ends the search -/

/-- A candidate that ends the search for the value of `x`: it ends in a fault, or is
equal to `x`. -/
def Settles (s : Snapshot) (x c : Expr) : Prop :=
  (∃ f, eval s c = .error f) ∨ eval s (.binary .eq x c) = .ok (.boolean true)

/-- The operator asks whether values are the same, and of a mark it does not say so. -/
theorem eval_eq_true_iff (hx : eval s x = .ok v) (hv : v.kind ≠ .undefined)
    (hc : eval s c = .ok w) :
    eval s (.binary .eq x c) = .ok (.boolean true) ↔ v.same w = true := by
  have heval : eval s (.binary .eq x c) = BinaryOp.eq.apply v w := by
    rw [eval_binary, hx, hc]
    rfl
  rw [heval]
  by_cases hw : w.kind = .undefined
  · obtain ⟨name, rfl⟩ := Value.kind_eq_undefined_iff.1 hw
    rw [BinaryOp.apply_undefined_right hv]
    simp
  · rw [BinaryOp.apply_eq hv hw]
    simp

/-- And so a candidate is passed over if it has another value. -/
theorem not_settles_iff (hx : eval s x = .ok v) (hv : v.kind ≠ .undefined) :
    ¬ Settles s x c ↔ ∃ w, eval s c = .ok w ∧ v.same w = false := by
  cases hc : eval s c with
  | error f => simp [Settles, hc]
  | ok w => simp [Settles, hc, eval_eq_true_iff hx hv hc]

/-! ## The search -/

/-- What does not settle the search is passed over. -/
theorem result_anySame_append (hx : eval s x = .ok v) (hv : v.kind ≠ .undefined)
    (hus : ∀ u ∈ us, ¬ Settles s x u) (cs : List Expr) :
    (Builtin.anySame v ((us ++ cs).map (run s))).result =
      (Builtin.anySame v (cs.map (run s))).result := by
  induction us with
  | nil => rfl
  | cons u us ih =>
    obtain ⟨hu, hus⟩ := List.forall_mem_cons.1 hus
    obtain ⟨w, hw, hsame⟩ := (not_settles_iff hx hv).1 hu
    have hother : ¬ v.same w = true := by simp [hsame]
    rw [List.cons_append, List.map_cons, Builtin.result_anySame_cons, ← eval, hw]
    exact (if_neg hother).trans (ih hus)

/-- What settles it decides it: the search ends in its fault, or with success. -/
theorem result_anySame_of_settles (hx : eval s x = .ok v) (hv : v.kind ≠ .undefined)
    (hc : Settles s x c) (ws : List Expr) :
    (Builtin.anySame v ((c :: ws).map (run s))).result = (eval s c).map fun _ => true := by
  rw [List.map_cons, Builtin.result_anySame_cons, ← eval]
  cases hw : eval s c with
  | error f => rfl
  | ok w =>
    have hsame : v.same w = true := by
      rcases hc with ⟨f, hf⟩ | heq
      · rw [hw] at hf
        cases hf
      · exact (eval_eq_true_iff hx hv hw).1 heq
    exact if_pos hsame

/-- The function looks for a value that is no mark, where there is a candidate at all. -/
theorem eval_member (s : Snapshot) (x : Expr) (hname : Builtin.ofName? name = some .member)
    (hcs : cs ≠ []) :
    eval s (.call name (x :: cs)) =
      eval s x >>= fun v =>
        if v.kind = .undefined then .ok (.boolean false)
        else (Builtin.anySame v (cs.map (run s))).result.map .boolean := by
  obtain ⟨c, cs, rfl⟩ := List.exists_cons_of_ne_nil hcs
  rw [eval_call s hname]
  change (Builtin.isMember (run s x :: run s c :: cs.map (run s))).result = _
  rw [Builtin.isMember, Logged.result_bind, ← eval]
  refine bind_congr fun v => ?_
  by_cases hv : v.kind = .undefined
  · rw [if_pos hv, if_pos (Value.isUndefined_iff.2 hv)]
    rfl
  · rw [if_neg hv, if_neg (mt Value.isUndefined_iff.1 hv)]
    exact Logged.result_bind _ _

/-- Among constants it is found by comparing values alone. -/
theorem result_anySame_const (s : Snapshot) (v : Value) (vs : List Value) :
    (Builtin.anySame v ((vs.map const).map (run s))).result = .ok (vs.any v.same) := by
  induction vs with
  | nil => rfl
  | cons w vs ih =>
    rw [List.map_cons, List.map_cons, Builtin.result_anySame_cons, ih, List.any_cons]
    change (if v.same w = true then Except.ok true else .ok (vs.any v.same)) = _
    cases v.same w <;> rfl

/-- **The function `in` agrees with the operator `==`.** A call ends in the fault of what
is looked for, if that has one, and is false where it is a mark, whatever the candidates
are. Else the first candidate that ends in a fault or that `==` finds equal decides: the
call ends in its fault, or is true. It is false if there is none. -/
theorem member_agrees_with_equality (s : Snapshot) (name : String) (x : Expr) (cs : List Expr)
    (hname : Builtin.ofName? name = some .member) (hcs : cs ≠ []) :
    (∀ f, eval s x = .error f → eval s (.call name (x :: cs)) = .error f) ∧
      (∀ v, eval s x = .ok v → v.kind = .undefined →
        eval s (.call name (x :: cs)) = .ok (.boolean false)) ∧
      ∀ v, eval s x = .ok v → v.kind ≠ .undefined →
        ((∀ c ∈ cs, ¬ Settles s x c) → eval s (.call name (x :: cs)) = .ok (.boolean false)) ∧
          ∀ us c ws, cs = us ++ c :: ws → (∀ u ∈ us, ¬ Settles s x u) → Settles s x c →
            (∀ f, eval s c = .error f → eval s (.call name (x :: cs)) = .error f) ∧
              ∀ w, eval s c = .ok w → eval s (.call name (x :: cs)) = .ok (.boolean true) := by
  have hcall := eval_member s x hname hcs
  refine ⟨fun f hx => ?_, fun v hx hv => ?_, fun v hx hv => ?_⟩
  · rw [hcall, hx]
    rfl
  · rw [hcall, hx]
    exact if_pos hv
  -- what is looked for is no mark, so the candidates decide
  have hsearch : eval s (.call name (x :: cs)) =
      (Builtin.anySame v (cs.map (run s))).result.map .boolean := by
    rw [hcall, hx]
    exact if_neg hv
  refine ⟨fun hnone => ?_, fun us c ws hsplit hus hc => ?_⟩
  · have hall := result_anySame_append hx hv hnone []
    rw [List.append_nil] at hall
    rw [hsearch, hall]
    rfl
  · have hfirst : (Builtin.anySame v (cs.map (run s))).result = (eval s c).map fun _ => true := by
      rw [hsplit, result_anySame_append hx hv hus, result_anySame_of_settles hx hv hc]
    rw [hsearch, hfirst]
    exact ⟨fun f hf => by rw [hf]; rfl, fun w hw => by rw [hw]; rfl⟩

/-- The width is found behind an unbound variable and a text, and a division by zero
behind it is left alone. Before it, the division is the fault of the call. -/
theorem member_before_and_behind_fault_agrees_with_equality :
    eval ⟨640, 480, .rgb, false, 3, 3, false, true⟩
        (.call "in" [.param "PSHOP_ImageWidth", .param "x", .const (.string "640"),
          .const (.integer 640), .binary .divide (.const (.integer 1)) (.const (.integer 0))]) =
        .ok (.boolean true) ∧
      eval ⟨640, 480, .rgb, false, 3, 3, false, true⟩
        (.call "IN" [.param "PSHOP_ImageWidth", .param "x",
          .binary .divide (.const (.integer 1)) (.const (.integer 0)), .const (.integer 640)]) =
        .error .divisionByZero := by
  have hpassed {c : Expr} {w : Value}
      (hc : eval ⟨640, 480, .rgb, false, 3, 3, false, true⟩ c = .ok w)
      (hw : Value.same (.integer 640) w = false) :
      ¬ Settles ⟨640, 480, .rgb, false, 3, 3, false, true⟩ (.param "PSHOP_ImageWidth") c :=
    (not_settles_iff (v := .integer 640) rfl nofun).2 ⟨w, hc, hw⟩
  constructor
  · have hcall := member_agrees_with_equality ⟨640, 480, .rgb, false, 3, 3, false, true⟩ "in"
      (.param "PSHOP_ImageWidth") [.param "x", .const (.string "640"), .const (.integer 640),
        .binary .divide (.const (.integer 1)) (.const (.integer 0))] (by decide) (by simp)
    have hus : ∀ u ∈ [.param "x", .const (.string "640")], ¬ Settles _ _ u :=
      List.forall_mem_cons.2 ⟨hpassed rfl rfl, List.forall_mem_cons.2 ⟨hpassed rfl rfl, nofun⟩⟩
    exact ((hcall.2.2 (.integer 640) rfl nofun).2 _ _ _ rfl hus (.inr rfl)).2 _ rfl
  · have hcall := member_agrees_with_equality ⟨640, 480, .rgb, false, 3, 3, false, true⟩ "IN"
      (.param "PSHOP_ImageWidth") [.param "x",
        .binary .divide (.const (.integer 1)) (.const (.integer 0)), .const (.integer 640)]
      (by decide) (by simp)
    have hus : ∀ u ∈ [.param "x"], ¬ Settles _ _ u :=
      List.forall_mem_cons.2 ⟨hpassed rfl rfl, nofun⟩
    exact ((hcall.2.2 (.integer 640) rfl nofun).2 _ _ _ rfl hus (.inl ⟨_, rfl⟩)).1 _ rfl

end Expr
end Enablement
