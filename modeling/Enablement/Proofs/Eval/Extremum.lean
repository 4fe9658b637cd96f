import Enablement.Proofs.Eval.Steps

/-!
# Evaluation — the least and the greatest of the arguments

The functions `min` and `max` are one for two orders (`Builtin.PicksBy`). If
their first two arguments are integers, they go through the others and keep,
of what they have and each integer that they come to, the one that is first in
the order. So they give the first of all integers among their arguments
(`Expr.IsFirst`), which depends on what the arguments are and not on how they
are arranged. If the first two are not both integers, none of the others is
looked at.
-/

namespace Enablement

namespace Value

/-- The integer that a value is, if it is one. -/
def integer? : Value → Option Int32
  | .integer n => some n
  | _ => none

/-- The integer of a value is there just if the value is one. -/
theorem integer?_eq_some_iff {v : Value} {n : Int32} : v.integer? = some n ↔ v = .integer n := by
  cases v <;> simp [integer?]

end Value

namespace Builtin

/-! ## The first of some integers -/

/-- The functions that pick the first of integers, and the order that they go by. -/
inductive PicksBy : Builtin → (Int32 → Int32 → Prop) → Prop
  /-- The least comes first. -/
  | least : PicksBy .least (· ≤ ·)
  /-- The greatest comes first. -/
  | greatest : PicksBy .greatest (· ≥ ·)

/-- Of any two integers `pick` gives the one that is first in the order `R`. -/
structure IsPick (pick : Int32 → Int32 → Int32) (R : Int32 → Int32 → Prop) : Prop where
  /-- What it gives is one of the two, and before the other. -/
  first : ∀ a b, (pick a b = a ∧ R a b) ∨ (pick a b = b ∧ R b a)
  /-- An integer counts as before itself. -/
  refl : ∀ a, R a a
  /-- What is before another is before all that this is before. -/
  trans : ∀ {a b c}, R a b → R b c → R a c
  /-- Of two integers only one is before the other. -/
  antisymm : ∀ {a b}, R a b → R b a → a = b

/-- The smaller of two integers is one of them and before both. -/
theorem isPick_min : IsPick min (· ≤ ·) where
  first a b := by
    by_cases h : a ≤ b
    · exact .inl ⟨if_pos h, h⟩
    · exact .inr ⟨if_neg h, (Int32.le_total a b).resolve_left h⟩
  refl := Int32.le_refl
  trans := Int32.le_trans
  antisymm := Int32.le_antisymm

/-- And so is the greater one, in the other order. -/
theorem isPick_max : IsPick max (· ≥ ·) where
  first a b := by
    by_cases h : a ≤ b
    · exact .inr ⟨if_pos h, h⟩
    · exact .inl ⟨if_neg h, (Int32.le_total a b).resolve_left h⟩
  refl := Int32.le_refl
  trans h h' := Int32.le_trans h' h
  antisymm h h' := Int32.le_antisymm h' h

/-- Both functions go through their arguments in the same way. -/
theorem PicksBy.exists_pick {f : Builtin} {R : Int32 → Int32 → Prop} (h : f.PicksBy R) :
    ∃ pick, IsPick pick R ∧ ∀ cs, f.apply cs = extremum pick cs := by
  cases h with
  | least => exact ⟨min, isPick_min, fun _ => rfl⟩
  | greatest => exact ⟨max, isPick_max, fun _ => rfl⟩

namespace IsPick

variable {pick : Int32 → Int32 → Int32} {R : Int32 → Int32 → Prop}

/-- What is given is before both. -/
theorem before (h : IsPick pick R) (a b : Int32) : R (pick a b) a ∧ R (pick a b) b := by
  rcases h.first a b with ⟨hpick, hab⟩ | ⟨hpick, hba⟩
  · rw [hpick]
    exact ⟨h.refl a, hab⟩
  · rw [hpick]
    exact ⟨hba, h.refl b⟩

/-- Picking again and again gives one of the integers. -/
theorem foldl_mem (h : IsPick pick R) (n : Int32) (ns : List Int32) :
    ns.foldl pick n ∈ n :: ns := by
  induction ns generalizing n with
  | nil => exact List.mem_singleton_self n
  | cons k ns ih =>
    rw [List.foldl_cons]
    rcases List.mem_cons.1 (ih (pick n k)) with heq | hmem
    · rw [heq]
      rcases h.first n k with ⟨hpick, -⟩ | ⟨hpick, -⟩ <;> simp [hpick]
    · exact List.mem_cons_of_mem _ (List.mem_cons_of_mem _ hmem)

/-- **And it is before all of them.** -/
theorem foldl_before (h : IsPick pick R) (n : Int32) (ns : List Int32) :
    ∀ m ∈ n :: ns, R (ns.foldl pick n) m := by
  induction ns generalizing n with
  | nil => exact List.forall_mem_cons.2 ⟨h.refl n, nofun⟩
  | cons k ns ih =>
    obtain ⟨hpick, hrest⟩ := List.forall_mem_cons.1 (ih (pick n k))
    obtain ⟨hn, hk⟩ := h.before n k
    exact List.forall_mem_cons.2
      ⟨h.trans hpick hn, List.forall_mem_cons.2 ⟨h.trans hpick hk, hrest⟩⟩

end IsPick

/-! ## Going through the arguments -/

section

variable (pick : Int32 → Int32 → Int32) {a b : Logged Value} {m n : Int32} {v w : Value}

/-- **One step**: a fault ends it, and of values only integers count. -/
theorem result_pickFrom_cons (n : Int32) (c : Logged Value) (cs : List (Logged Value)) :
    (pickFrom pick n (c :: cs)).result =
      c.result >>= fun v => (pickFrom pick (v.integer?.elim n (pick n)) cs).result := by
  rw [pickFrom, Logged.result_bind]
  refine bind_congr fun v => ?_
  cases v <;> rfl

/-- Two integers in front, and the others are gone through. -/
theorem result_extremum_integers (ha : a.result = .ok (.integer m))
    (hb : b.result = .ok (.integer n)) (cs : List (Logged Value)) :
    (extremum pick (a :: b :: cs)).result = (pickFrom pick (pick m n) cs).result := by
  rw [extremum, Logged.result_bind, ha]
  change (b >>= _).result = _
  rw [Logged.result_bind, hb]
  rfl

/-- Anything else in front, and they are not. -/
theorem result_extremum_other (ha : a.result = .ok v) (hb : b.result = .ok w)
    (h : ¬ (v.kind = .integer ∧ w.kind = .integer)) (cs : List (Logged Value)) :
    (extremum pick (a :: b :: cs)).result = .ok (.integer 0) := by
  rw [extremum, Logged.result_bind, ha]
  change (b >>= _).result = _
  rw [Logged.result_bind, hb]
  cases v with
  | integer m =>
    cases w with
    | integer n => exact absurd ⟨rfl, rfl⟩ h
    | _ => rfl
  | _ => rfl

end

end Builtin

namespace Expr

variable {s : Snapshot} {R : Int32 → Int32 → Prop} {pick : Int32 → Int32 → Int32}
  {args us : List Expr} {k m n : Int32}

/-! ## The integers among the arguments -/

/-- The integers that arguments are, in order. -/
def integersOf (s : Snapshot) (args : List Expr) : List Int32 :=
  args.filterMap fun a => (eval s a).toOption.bind Value.integer?

/-- `k` is the first, in the order `R`, of the integers that arguments are. -/
structure IsFirst (s : Snapshot) (R : Int32 → Int32 → Prop) (args : List Expr) (k : Int32) :
    Prop where
  /-- It is one of them. -/
  attained : ∃ a ∈ args, eval s a = .ok (.integer k)
  /-- And before all of them. -/
  before : ∀ a ∈ args, ∀ m, eval s a = .ok (.integer m) → R k m

/-- An integer is among those of the arguments just if one of them comes to it. -/
theorem mem_integersOf : k ∈ integersOf s args ↔ ∃ a ∈ args, eval s a = .ok (.integer k) := by
  have hinteger (a : Expr) : (eval s a).toOption.bind Value.integer? = some k ↔
      eval s a = .ok (.integer k) := by
    cases eval s a with
    | error f => simp [Except.toOption]
    | ok v => simp [Except.toOption, Value.integer?_eq_some_iff]
  simp only [integersOf, List.mem_filterMap, hinteger]

/-- The first of integers does not depend on their order in the call. -/
theorem IsFirst.perm {args' : List Expr} (h : IsFirst s R args k) (hperm : args'.Perm args) :
    IsFirst s R args' k where
  attained := by
    obtain ⟨a, ha, heval⟩ := h.attained
    exact ⟨a, hperm.mem_iff.2 ha, heval⟩
  before a ha := h.before a (hperm.mem_iff.1 ha)

/-- And there is only one. -/
theorem IsFirst.unique {k' : Int32} (hpick : Builtin.IsPick pick R) (h : IsFirst s R args k)
    (h' : IsFirst s R args k') : k = k' := by
  obtain ⟨a, ha, heval⟩ := h.attained
  obtain ⟨a', ha', heval'⟩ := h'.attained
  exact hpick.antisymm (h.before a' ha' k' heval') (h'.before a ha k heval)

/-- **Arguments with values are gone through**, and their integers picked. -/
theorem result_pickFrom_append (pick : Int32 → Int32 → Int32) (n : Int32)
    (hus : ∀ u ∈ us, ∃ v, eval s u = .ok v) (cs : List Expr) :
    (Builtin.pickFrom pick n ((us ++ cs).map (run s))).result =
      (Builtin.pickFrom pick ((integersOf s us).foldl pick n) (cs.map (run s))).result := by
  induction us generalizing n with
  | nil => rfl
  | cons u us ih =>
    obtain ⟨⟨v, hv⟩, hus⟩ := List.forall_mem_cons.1 hus
    rw [List.cons_append, List.map_cons, Builtin.result_pickFrom_cons, ← eval, hv]
    refine (ih _ hus).trans ?_
    rw [integersOf, integersOf, List.filterMap_cons, hv]
    cases v <;> rfl

/-! ## The call -/

section

variable {name : String} {f : Builtin} {a b : Expr} {cs : List Expr}

/-- Of two integers and other arguments with values the first integer is given. -/
theorem exists_isFirst_of_call (hname : Builtin.ofName? name = some f) (hf : f.PicksBy R)
    (ha : eval s a = .ok (.integer m)) (hb : eval s b = .ok (.integer n))
    (hcs : ∀ c ∈ cs, ∃ v, eval s c = .ok v) :
    ∃ k, eval s (.call name (a :: b :: cs)) = .ok (.integer k) ∧
      IsFirst s R (a :: b :: cs) k := by
  obtain ⟨pick, hpick, happly⟩ := hf.exists_pick
  have hrun := result_pickFrom_append pick (pick m n) hcs []
  rw [List.append_nil] at hrun
  have hintegers : integersOf s (a :: b :: cs) = m :: n :: integersOf s cs := by
    rw [integersOf, List.filterMap_cons, ha, List.filterMap_cons, hb]
    rfl
  refine ⟨(n :: integersOf s cs).foldl pick m, ?_, ?_, fun c hc k hk => ?_⟩
  · rw [eval_call s hname, happly]
    exact (Builtin.result_extremum_integers pick ha hb _).trans hrun
  · exact mem_integersOf.1 (hintegers ▸ hpick.foldl_mem m _)
  · exact hpick.foldl_before m _ k (hintegers ▸ mem_integersOf.2 ⟨c, hc, hk⟩)

/-- And so their order is nothing to the call, as long as two integers are in front. -/
theorem eval_call_perm (hname : Builtin.ofName? name = some f) (hf : f.PicksBy R)
    (ha : eval s a = .ok (.integer m)) (hb : eval s b = .ok (.integer n))
    (hcs : ∀ c ∈ cs, ∃ v, eval s c = .ok v) {a' b' : Expr} {cs' : List Expr} {m' n' : Int32}
    (hperm : (a' :: b' :: cs').Perm (a :: b :: cs)) (ha' : eval s a' = .ok (.integer m'))
    (hb' : eval s b' = .ok (.integer n')) :
    eval s (.call name (a' :: b' :: cs')) = eval s (.call name (a :: b :: cs)) := by
  have hall : ∀ c ∈ a :: b :: cs, ∃ v, eval s c = .ok v :=
    List.forall_mem_cons.2 ⟨⟨_, ha⟩, List.forall_mem_cons.2 ⟨⟨_, hb⟩, hcs⟩⟩
  have hcs' : ∀ c ∈ cs', ∃ v, eval s c = .ok v := fun c hc =>
    hall c (hperm.subset (List.mem_cons_of_mem _ (List.mem_cons_of_mem _ hc)))
  obtain ⟨pick, hpick, -⟩ := hf.exists_pick
  obtain ⟨k, hk, hfirst⟩ := exists_isFirst_of_call hname hf ha hb hcs
  obtain ⟨k', hk', hfirst'⟩ := exists_isFirst_of_call hname hf ha' hb' hcs'
  rw [hk, hk', hfirst.unique hpick (hfirst'.perm hperm.symm)]

end

/-- **The least and the greatest.** Where the first two arguments are integers and all
have values, a call of `min` or `max` gives the first, in its order, of the integers
among its arguments, and other values do not count; so it gives the same for all
arrangements of them with integers in the first two places. If a later argument ends
in a fault, the first such fault is that of the call. And if the first two have values
that are not both integers, it gives zero, whatever the others are. -/
theorem extremum_is_first_integer (s : Snapshot) (name : String) (f : Builtin)
    (R : Int32 → Int32 → Prop) (hname : Builtin.ofName? name = some f) (hf : f.PicksBy R)
    (a b : Expr) (cs : List Expr) :
    (∀ m n, eval s a = .ok (.integer m) → eval s b = .ok (.integer n) →
        ((∀ c ∈ cs, ∃ v, eval s c = .ok v) →
          (∃ k, eval s (.call name (a :: b :: cs)) = .ok (.integer k) ∧
            IsFirst s R (a :: b :: cs) k) ∧
          ∀ a' b' cs' m' n', (a' :: b' :: cs').Perm (a :: b :: cs) →
            eval s a' = .ok (.integer m') → eval s b' = .ok (.integer n') →
            eval s (.call name (a' :: b' :: cs')) = eval s (.call name (a :: b :: cs))) ∧
        ∀ us c ws g, cs = us ++ c :: ws → (∀ u ∈ us, ∃ v, eval s u = .ok v) →
          eval s c = .error g → eval s (.call name (a :: b :: cs)) = .error g) ∧
      ∀ v w, eval s a = .ok v → eval s b = .ok w → ¬ (v.kind = .integer ∧ w.kind = .integer) →
        eval s (.call name (a :: b :: cs)) = .ok (.integer 0) := by
  obtain ⟨pick, -, happly⟩ := hf.exists_pick
  have hcall : eval s (.call name (a :: b :: cs)) =
      (Builtin.extremum pick (run s a :: run s b :: cs.map (run s))).result := by
    rw [eval_call s hname, happly]
    rfl
  -- in order: the extremum, all arrangements, the first fault, and the fallback
  refine ⟨fun m n ha hb => ⟨fun hcs => ⟨exists_isFirst_of_call hname hf ha hb hcs, ?_⟩, ?_⟩, ?_⟩
  · intro a' b' cs' m' n' hperm ha' hb'
    exact eval_call_perm hname hf ha hb hcs hperm ha' hb'
  · intro us c ws g hsplit hus hc
    rw [hcall, Builtin.result_extremum_integers pick ha hb, hsplit,
      result_pickFrom_append pick _ hus, List.map_cons, Builtin.result_pickFrom_cons, ← eval, hc]
    rfl
  · intro v w ha hb hkinds
    rw [hcall]
    exact Builtin.result_extremum_other pick ha hb hkinds _

/-- The greatest of 3, the width, an unbound variable, a text and -5 is an integer before
them all, and the same from behind. A division by zero is the fault of a call with two
integers in front, and is not come to in one without. -/
theorem extremum_with_width_is_first_integer :
    ((∃ k, eval ⟨640, 480, .rgb, false, 3, 3, false, true⟩
        (.call "Max" [.const (.integer 3), .param "PSHOP_ImageWidth", .param "x",
          .const (.string "999"), .const (.integer (-5))]) = .ok (.integer k) ∧
        IsFirst ⟨640, 480, .rgb, false, 3, 3, false, true⟩ (· ≥ ·)
          [.const (.integer 3), .param "PSHOP_ImageWidth", .param "x", .const (.string "999"),
            .const (.integer (-5))] k) ∧
      eval ⟨640, 480, .rgb, false, 3, 3, false, true⟩
          (.call "Max" [.const (.integer 3), .const (.integer (-5)), .const (.string "999"),
            .param "x", .param "PSHOP_ImageWidth"]) =
        eval ⟨640, 480, .rgb, false, 3, 3, false, true⟩
          (.call "Max" [.const (.integer 3), .param "PSHOP_ImageWidth", .param "x",
            .const (.string "999"), .const (.integer (-5))])) ∧
      eval ⟨640, 480, .rgb, false, 3, 3, false, true⟩
        (.call "min" [.const (.integer 3), .param "PSHOP_ImageWidth", .param "x",
          .binary .divide (.const (.integer 1)) (.const (.integer 0)), .call "y" []]) =
        .error .divisionByZero ∧
      eval ⟨640, 480, .rgb, false, 3, 3, false, true⟩
        (.call "min" [.const (.integer 3), .param "x",
          .binary .divide (.const (.integer 1)) (.const (.integer 0))]) =
        .ok (.integer 0) := by
  have hmax := extremum_is_first_integer ⟨640, 480, .rgb, false, 3, 3, false, true⟩ "Max"
    .greatest _ (by decide) .greatest (.const (.integer 3)) (.param "PSHOP_ImageWidth")
    [.param "x", .const (.string "999"), .const (.integer (-5))]
  have hfault := extremum_is_first_integer ⟨640, 480, .rgb, false, 3, 3, false, true⟩ "min"
    .least _ (by decide) .least (.const (.integer 3)) (.param "PSHOP_ImageWidth")
    [.param "x", .binary .divide (.const (.integer 1)) (.const (.integer 0)), .call "y" []]
  have hzero := extremum_is_first_integer ⟨640, 480, .rgb, false, 3, 3, false, true⟩ "min"
    .least _ (by decide) .least (.const (.integer 3)) (.param "x")
    [.binary .divide (.const (.integer 1)) (.const (.integer 0))]
  refine ⟨?_, ?_, hzero.2 _ _ rfl rfl nofun⟩
  · have hvalues := (hmax.1 3 640 rfl rfl).1 (List.forall_mem_cons.2 ⟨⟨_, rfl⟩,
      List.forall_mem_cons.2 ⟨⟨_, rfl⟩, List.forall_mem_cons.2 ⟨⟨_, rfl⟩, nofun⟩⟩⟩)
    have hbehind := List.reverse_perm
      [param "PSHOP_ImageWidth", .param "x", .const (.string "999"), .const (.integer (-5))]
    exact ⟨hvalues.1, hvalues.2 _ _ _ 3 (-5) (hbehind.cons _) rfl rfl⟩
  · exact (hfault.1 3 640 rfl rfl).2 [.param "x"] _ _ _ rfl
      (List.forall_mem_cons.2 ⟨⟨_, rfl⟩, nofun⟩) rfl

end Expr
end Enablement
