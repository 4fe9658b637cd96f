import Enablement.Proofs.Eval.Steps
import Enablement.Proofs.Expr.Subtrees

/-!
# Evaluation — what the log tells

The log of an evaluation opens with the expression and closes with what came
of it. In between stands what was met with from left to right: variables that
no document has, and operands of logical operators that are no truth values.
Operators on values and functions log nothing by themselves, and what they do
not come to is not logged (`Builtin.events_apply_isPrefix`); a logical operator
logs one operand at most. So there is one event at most for each node of the
expression, and that of a variable in its place among the variables
(`Expr.accountedBy_run`).
-/

namespace Enablement

/-! ## Events of computations in a row -/

namespace Logged

variable {α β : Type} {x : Logged α} {f : α → Logged β}

/-- The log of two computations in a row, where the first one has a value. -/
theorem events_bind_of_ok {a : α} (h : x.result = .ok a) :
    (x >>= f).events = x.events ++ (f a).events := by
  change (x.andThen f).events = _
  rw [andThen, h]

/-- And where it ends in a fault. -/
theorem events_bind_of_error {e : Fault} (h : x.result = .error e) :
    (x >>= f).events = x.events := by
  change (x.andThen f).events = _
  rw [andThen, h]

/-- A second computation that logs nothing adds nothing. -/
theorem events_bind_of_silent (h : ∀ a, (f a).events = []) : (x >>= f).events = x.events := by
  cases hx : x.result with
  | error e => exact events_bind_of_error hx
  | ok a => rw [events_bind_of_ok hx, h, List.append_nil]

/-- Two computations in a row log no more than the one and then the other. -/
theorem events_bind_isPrefix {events : List Event}
    (h : ∀ a, x.result = .ok a → (f a).events <+: events) :
    (x >>= f).events <+: x.events ++ events := by
  cases hx : x.result with
  | error e =>
    rw [events_bind_of_error hx]
    exact List.prefix_append _ _
  | ok a =>
    rw [events_bind_of_ok hx]
    exact (List.prefix_append_right_inj _).2 (h a hx)

end Logged

namespace Builtin

/-- The search for a value logs what the candidates log, up to some point. -/
theorem events_anySame_isPrefix (v : Value) (cs : List (Logged Value)) :
    (anySame v cs).events <+: cs.flatMap Logged.events := by
  induction cs with
  | nil => exact List.prefix_rfl
  | cons c cs ih =>
    refine Logged.events_bind_isPrefix fun w _ => ?_
    split
    · exact List.nil_prefix
    · exact ih

/-- Membership logs what its arguments log, up to some point. -/
theorem events_isMember_isPrefix (cs : List (Logged Value)) :
    (isMember cs).events <+: cs.flatMap Logged.events := by
  unfold isMember
  split
  next x c cs =>
    refine Logged.events_bind_isPrefix fun v _ => ?_
    split
    · exact List.nil_prefix
    · rw [Logged.events_bind_of_silent fun _ => rfl]
      exact events_anySame_isPrefix v (c :: cs)
  next => exact List.nil_prefix

/-- Picking among integers logs what the arguments log, up to some point. -/
theorem events_pickFrom_isPrefix (pick : Int32 → Int32 → Int32) (n : Int32)
    (cs : List (Logged Value)) : (pickFrom pick n cs).events <+: cs.flatMap Logged.events := by
  induction cs generalizing n with
  | nil => exact List.prefix_rfl
  | cons c cs ih =>
    refine Logged.events_bind_isPrefix fun v _ => ?_
    split <;> exact ih _

/-- The least and the greatest log what their arguments log, up to some point. -/
theorem events_extremum_isPrefix (pick : Int32 → Int32 → Int32) (cs : List (Logged Value)) :
    (extremum pick cs).events <+: cs.flatMap Logged.events := by
  unfold extremum
  split
  next a b cs =>
    refine Logged.events_bind_isPrefix fun v _ => Logged.events_bind_isPrefix fun w _ => ?_
    split
    · exact events_pickFrom_isPrefix pick _ cs
    · exact List.nil_prefix
  next => exact List.nil_prefix

/-- And so does the last of the functions. -/
theorem events_holdsWithout_isPrefix (cs : List (Logged Value)) :
    (holdsWithout cs).events <+: cs.flatMap Logged.events := by
  unfold holdsWithout
  split
  next a b =>
    refine Logged.events_bind_isPrefix fun v _ => Logged.events_bind_isPrefix fun w _ => ?_
    split <;> exact List.nil_prefix
  next => exact List.nil_prefix

/-- **A function logs what its arguments log**, from left to right as far as it comes. -/
theorem events_apply_isPrefix (f : Builtin) (cs : List (Logged Value)) :
    (f.apply cs).events <+: cs.flatMap Logged.events := by
  cases f with
  | member => exact events_isMember_isPrefix cs
  | least | greatest => exact events_extremum_isPrefix _ cs
  | without => exact events_holdsWithout_isPrefix cs

end Builtin

/-! ## Events and the nodes that they are about -/

namespace Event

/-- The name of a variable that was asked for and is not bound. -/
def unbound? : Event → Option String
  | .undefinedVariable name => some name
  | _ => none

/-- Whether an operand of a logical operator was no truth value. -/
def isOperand : Event → Bool
  | .nonBooleanOperand .. => true
  | _ => false

/-- Events of unbound variables name them. -/
theorem filterMap_unbound?_map (names : List String) :
    (names.map undefinedVariable).filterMap unbound? = names := by
  rw [List.filterMap_map]
  exact List.filterMap_some

end Event

namespace Expr

/-- The name of a variable that no document has. -/
def unbound? : Expr → Option String
  | .param name => if Variable.ofName? name = none then some name else none
  | _ => none

/-- Whether the root is a logical operator. -/
def isLogical : Expr → Bool
  | .logical .. => true
  | _ => false

/-- The variables in an expression that no document has, from left to right and as often
as they stand there. -/
def unboundNames (e : Expr) : List String := e.subtrees.filterMap unbound?

/-- The number of logical operators in an expression. -/
def logicalNodes (e : Expr) : Nat := e.subtrees.countP isLogical

/-- The unbound names of a variable: its own, or none. -/
theorem unboundNames_param (name : String) :
    (param name).unboundNames = (param name).unbound?.toList := by
  rw [unboundNames, subtrees, List.filterMap_cons]
  cases (param name).unbound? <;> rfl

/-- Those of two operands are those of the left one and then of the right one. -/
theorem unboundNames_binary (op : BinaryOp) (l r : Expr) :
    (binary op l r).unboundNames = l.unboundNames ++ r.unboundNames := List.filterMap_append

end Expr

/-- **The nodes account for the events**: the variables that are not bound are among them, in
their order, operands are no more than the logical operators among them, and there is
nothing else. -/
structure AccountedBy (nodes : List Expr) (events : List Event) : Prop where
  /-- The variables are among those of the nodes, in their order. -/
  unbound : (events.filterMap Event.unbound?).Sublist (nodes.filterMap Expr.unbound?)
  /-- There is one operand at most for each logical operator. -/
  operands : events.countP Event.isOperand ≤ nodes.countP Expr.isLogical
  /-- And there is nothing else. -/
  others : ∀ ev ∈ events, ev.unbound?.isSome = true ∨ ev.isOperand = true

namespace AccountedBy

variable {nodes nodes' : List Expr} {events events' : List Event} {e : Expr}

/-- Nothing is accounted for by any nodes. -/
theorem nil : AccountedBy nodes [] where
  unbound := List.nil_sublist _
  operands := Nat.zero_le _
  others := nofun

/-- The marks of some names are accounted for by the nodes that have these names. -/
theorem ofNames (nodes : List Expr) :
    AccountedBy nodes ((nodes.filterMap Expr.unbound?).map .undefinedVariable) where
  unbound := by simp only [Event.filterMap_unbound?_map, List.Sublist.refl]
  operands := by simp [List.countP_map, Function.comp_def, Event.isOperand]
  others := List.forall_mem_map.2 fun _ _ => .inl rfl

/-- Two logs in a row are accounted for by the nodes of both. -/
theorem append (h : AccountedBy nodes events) (h' : AccountedBy nodes' events') :
    AccountedBy (nodes ++ nodes') (events ++ events') where
  unbound := by
    rw [List.filterMap_append, List.filterMap_append]
    exact h.unbound.append h'.unbound
  operands := by
    rw [List.countP_append, List.countP_append]
    exact Nat.add_le_add h.operands h'.operands
  others := List.forall_mem_append.2 ⟨h.others, h'.others⟩

/-- The front part of a log is accounted for by the nodes of the whole. -/
theorem of_isPrefix (h : AccountedBy nodes events) (hpre : events' <+: events) :
    AccountedBy nodes events' where
  unbound := (hpre.sublist.filterMap _).trans h.unbound
  operands := Nat.le_trans hpre.sublist.countP_le h.operands
  others ev hev := h.others ev (hpre.subset hev)

/-- A further node takes nothing away. -/
theorem cons (h : AccountedBy nodes events) (e : Expr) : AccountedBy (e :: nodes) events where
  unbound := h.unbound.trans ((List.sublist_cons_self e nodes).filterMap _)
  operands := Nat.le_trans h.operands (List.sublist_cons_self e nodes).countP_le
  others := h.others

/-- It does not matter where a node stands that is not a variable. -/
theorem cons_of_concat (he : e.unbound? = none) (h : AccountedBy (nodes ++ [e]) events) :
    AccountedBy (e :: nodes) events where
  unbound := by
    have hunbound := h.unbound
    rw [List.filterMap_append, List.filterMap_cons_none he, List.filterMap_nil,
      List.append_nil] at hunbound
    rw [List.filterMap_cons_none he]
    exact hunbound
  operands := (List.perm_append_singleton e nodes).countP_eq Expr.isLogical ▸ h.operands
  others := h.others

/-- **One computation after another** is accounted for by what accounts for both. -/
theorem bind {α β : Type} {x : Logged α} {f : α → Logged β} (hx : AccountedBy nodes x.events)
    (hf : ∀ a, x.result = .ok a → AccountedBy nodes' (f a).events) :
    AccountedBy (nodes ++ nodes') (x >>= f).events := by
  cases hresult : x.result with
  | error _ =>
    rw [Logged.events_bind_of_error hresult, ← List.append_nil x.events]
    exact hx.append nil
  | ok a =>
    rw [Logged.events_bind_of_ok hresult]
    exact hx.append (hf a hresult)

/-- A log for each member of a list is accounted for by the nodes of the members. -/
theorem flatMap {ι : Type} {is : List ι} {nodes : ι → List Expr} {events : ι → List Event}
    (h : ∀ i ∈ is, AccountedBy (nodes i) (events i)) :
    AccountedBy (is.flatMap nodes) (is.flatMap events) := by
  induction is with
  | nil => exact nil
  | cons i is ih =>
    obtain ⟨hi, his⟩ := List.forall_mem_cons.1 h
    exact hi.append (ih his)

end AccountedBy

namespace LogicalOp

variable {nodes nodes' : List Expr} {e : Expr} (op : LogicalOp)

/-- An operand that is refused is logged. -/
theorem accountedBy_refuse (side : Side) (v : Value) (nodes : List Expr)
    (he : e.isLogical = true) : AccountedBy (nodes ++ [e]) (op.refuse side v).events where
  unbound := List.nil_sublist _
  operands := List.countP_pos_iff.2 ⟨e, List.mem_concat_self, he⟩
  others := List.forall_mem_singleton.2 (.inr rfl)

/-- **A logical operator logs what its operands log**, and one operand at most. -/
theorem accountedBy_apply {l r : Logged Value} (hl : AccountedBy nodes l.events)
    (hr : AccountedBy nodes' r.events) (he : e.isLogical = true) :
    AccountedBy (nodes ++ (nodes' ++ [e])) (op.apply l r).events := by
  refine hl.bind fun v _ => ?_
  split
  · split
    · exact .nil
    · refine hr.bind fun w _ => ?_
      split
      · exact .nil
      · exact op.accountedBy_refuse .right _ [] he
  · exact op.accountedBy_refuse .left _ nodes' he

end LogicalOp

namespace Expr

variable {s : Snapshot} {e : Expr} {v : Value}

/-! ## The events of an evaluation -/

/-- A variable is logged if no document has it. -/
theorem events_run_param (s : Snapshot) (name : String) :
    (run s (.param name)).events = (param name).unboundNames.map .undefinedVariable := by
  rw [run, Snapshot.resolve, Snapshot.lookup, unboundNames_param, unbound?]
  cases hname : Variable.ofName? name with
  | none => rfl
  | some x =>
    have hbound : (s.get x).isUndefined = false := by
      cases x <;> rfl
    simp [hbound]

/-- **The subtrees of an expression account for what is logged on the way.** -/
theorem accountedBy_run (s : Snapshot) (e : Expr) : AccountedBy e.subtrees (run s e).events := by
  induction e using induct with
  | const v => exact .nil
  | param name =>
    rw [events_run_param]
    exact .ofNames _
  | unary op x ih =>
    rw [run, Logged.events_bind_of_silent fun _ => rfl]
    exact ih.cons _
  | binary op l r ihl ihr =>
    rw [run]
    refine .cons (ihl.bind fun v _ => ?_) _
    rw [Logged.events_bind_of_silent fun _ => rfl]
    exact ihr
  | logical op l r ihl ihr =>
    rw [run, subtrees]
    -- an operand is refused behind what the operands log, so its node is put last
    refine .cons_of_concat rfl ?_
    rw [List.append_assoc]
    exact op.accountedBy_apply ihl ihr rfl
  | call name args ih =>
    rw [subtrees, subtreesAll_eq_flatMap, run, callByName, runAll_eq_map]
    split
    next f hf =>
      -- the arguments in full account for what the function comes to of them
      refine .cons ((AccountedBy.flatMap ih).of_isPrefix ?_) _
      rw [← List.flatMap_map]
      exact f.events_apply_isPrefix _
    next => exact .nil

/-- **Nothing is left out** where nothing is left alone and evaluation comes to a value. -/
theorem IsStrict.filterMap_unbound?_run (he : e.IsStrict) (hv : eval s e = .ok v) :
    (run s e).events.filterMap Event.unbound? = e.unboundNames := by
  induction he generalizing v with
  | const => rfl
  | param => rw [events_run_param, Event.filterMap_unbound?_map]
  | unary _ ih =>
    obtain ⟨w, hx, -⟩ := eval_unary_eq_ok hv
    rw [run, Logged.events_bind_of_silent fun _ => rfl]
    exact ih hx
  | binary _ _ ihl ihr =>
    -- with a value for the whole there are values for both operands, so both are run
    obtain ⟨u, w, hl, hr, -⟩ := eval_binary_eq_ok hv
    rw [run, Logged.events_bind_of_ok hl, Logged.events_bind_of_silent fun _ => rfl,
      List.filterMap_append, ihl hl, ihr hr, unboundNames_binary]

/-! ## The whole log -/

/-- What is logged of the value of the whole expression: that it is no truth value. -/
def rootEvents : Except Fault Value → List Event
  | .ok v => if v.kind = .boolean then [] else [.nonBooleanRoot v]
  | .error _ => []

/-- **The log of an evaluation**: the expression, the events on the way and of its value,
and the outcome. -/
theorem events_evaluate (s : Snapshot) (e : Expr) :
    (e.evaluate s).events =
      .evaluating e :: ((run s e).events ++ rootEvents (eval s e)) ++
        [closing (e.evaluate s).result] := by
  have hverdict : (verdict s e).events = (run s e).events ++ rootEvents (eval s e) := by
    cases hv : eval s e with
    | error f => exact (Logged.events_bind_of_error hv).trans (List.append_nil _).symm
    | ok v =>
      refine (Logged.events_bind_of_ok hv).trans ?_
      cases v <;> rfl
  rw [← hverdict]
  rfl

/-- The whole expression is logged just if it comes to a value that is no truth value. -/
theorem mem_rootEvents_iff {ev : Event} {r : Except Fault Value} :
    ev ∈ rootEvents r ↔ ∃ v, ev = .nonBooleanRoot v ∧ r = .ok v ∧ v.kind ≠ .boolean := by
  cases r with
  | error f => simp [rootEvents]
  | ok w =>
    rw [rootEvents]
    split
    next hw =>
      refine ⟨nofun, ?_⟩
      rintro ⟨v, -, hv, hkind⟩
      exact absurd (Except.ok.inj hv ▸ hw) hkind
    next hw =>
      rw [List.mem_singleton]
      refine ⟨fun h => ⟨w, h, rfl, hw⟩, ?_⟩
      rintro ⟨v, rfl, hv, -⟩
      rw [Except.ok.inj hv]

/-- Neither the value nor the outcome is about a variable or an operand. -/
theorem unbound?_rootEvents {ev : Event} {r : Except Fault Value} (h : ev ∈ rootEvents r) :
    ev.unbound? = none ∧ ev.isOperand = false := by
  obtain ⟨v, rfl, -⟩ := mem_rootEvents_iff.1 h
  exact ⟨rfl, rfl⟩

/-- The event that closes the log is neither of a variable nor of an operand. -/
theorem unbound?_closing (r : Except Fault Bool) :
    (closing r).unbound? = none ∧ (closing r).isOperand = false := by
  cases r <;> exact ⟨rfl, rfl⟩

/-- So the variables in the log of a verdict are those in the log of the expression. -/
theorem filterMap_unbound?_evaluate (s : Snapshot) (e : Expr) :
    (e.evaluate s).events.filterMap Event.unbound? =
      (run s e).events.filterMap Event.unbound? := by
  have hroot : (rootEvents (eval s e)).filterMap Event.unbound? = [] :=
    List.filterMap_eq_nil_iff.2 fun _ hev => (unbound?_rootEvents hev).1
  rw [events_evaluate, List.filterMap_append, List.filterMap_cons_none rfl, List.filterMap_append,
    hroot, List.filterMap_cons_none (unbound?_closing _).1]
  simp

/-- And so are the operands. -/
theorem countP_isOperand_evaluate (s : Snapshot) (e : Expr) :
    (e.evaluate s).events.countP Event.isOperand = (run s e).events.countP Event.isOperand := by
  have hroot : (rootEvents (eval s e)).countP Event.isOperand = 0 :=
    List.countP_eq_zero.2 fun _ hev => Bool.eq_false_iff.1 (unbound?_rootEvents hev).2
  have hclosing := Bool.eq_false_iff.1 (unbound?_closing (e.evaluate s).result).2
  rw [events_evaluate, List.countP_append, List.countP_cons_of_neg Bool.false_ne_true,
    List.countP_append, hroot, List.countP_cons_of_neg hclosing]
  rfl

/-- Evaluation itself never logs the whole expression. -/
theorem nonBooleanRoot_not_mem_run (s : Snapshot) (e : Expr) (v : Value) :
    .nonBooleanRoot v ∉ (run s e).events := by
  intro hmem
  rcases (accountedBy_run s e).others _ hmem with h | h <;> cases h

/-- **The root is logged if and only if it has a value that is no truth value.** -/
theorem nonBooleanRoot_mem_iff :
    .nonBooleanRoot v ∈ (e.evaluate s).events ↔ eval s e = .ok v ∧ v.kind ≠ .boolean := by
  have hclosing : .nonBooleanRoot v ≠ closing (e.evaluate s).result := by
    cases (e.evaluate s).result <;> simp [closing]
  have hrun := nonBooleanRoot_not_mem_run s e v
  rw [events_evaluate]
  simp [hclosing, hrun, mem_rootEvents_iff]

/-- And then it is the last but one event. -/
theorem events_evaluate_of_kind_ne (hv : eval s e = .ok v) (hkind : v.kind ≠ .boolean) :
    (e.evaluate s).events =
      .evaluating e :: (run s e).events ++ [.nonBooleanRoot v, .returned false] := by
  have hroot : rootEvents (eval s e) = [.nonBooleanRoot v] := by
    rw [hv]
    exact if_neg hkind
  have hresult : (e.evaluate s).result = .ok false := by
    have hne : v ≠ .boolean true := fun h => hkind (h ▸ rfl)
    rw [result_evaluate, hv]
    exact congrArg Except.ok (decide_eq_false hne)
  rw [events_evaluate, hroot, hresult, List.cons_append, List.append_assoc]
  rfl

end Expr

/-- The wording of the end of a log, by what came of the evaluation. -/
def Record.ofOutcome : Except Fault Bool → Record
  | .ok verdict => ⟨none, .debug, [("return", Value.boolWord verdict)]⟩
  | .error f => ⟨none, .error, [("error", f.message)]⟩

/-- The event that closes the log has the wording of the outcome. -/
theorem Expr.record_closing (r : Except Fault Bool) : (closing r).record = .ofOutcome r := by
  cases r <;> rfl

/-- What is logged on the way opens no span and closes none. -/
theorem Event.record_of_inner {ev : Event}
    (h : (ev.unbound?.isSome = true ∨ ev.isOperand = true) ∨ ∃ v, ev = .nonBooleanRoot v) :
    ev.record.span? = none ∧
      ∀ text, ("return", text) ∉ ev.record.fields ∧ ("error", text) ∉ ev.record.fields := by
  rcases h with (h | h) | ⟨v, rfl⟩
  · cases ev with
    | undefinedVariable name => simp [record]
    | _ => cases h
  · cases ev with
    | nonBooleanOperand op side v => simp [record]
    | _ => cases h
  · simp [record]

namespace Expr

variable {s : Snapshot} {e : Expr} {v : Value}

/-- **The log is faithful.** It opens one span, for the expression as it is written, and
the last record and no other tells the verdict or the fault. That the whole is no truth
value is logged if and only if it has such a value, once and just before the verdict
false. The unbound variables that are logged are some of those in the expression, from
left to right, and all of them if every operand is taken and has a value; and there are
no more operands without a truth value than logical operators. -/
theorem log_is_faithful (s : Snapshot) (e : Expr) :
    (∃ within, (e.evaluate s).events.map Event.record =
        ⟨some "evaluate", .debug, [("expr", e.render)]⟩ :: within ++
          [.ofOutcome (e.evaluate s).result] ∧
        ∀ r ∈ within, r.span? = none ∧
          ∀ text, ("return", text) ∉ r.fields ∧ ("error", text) ∉ r.fields) ∧
      (∀ v, .nonBooleanRoot v ∈ (e.evaluate s).events ↔ eval s e = .ok v ∧ v.kind ≠ .boolean) ∧
      (∀ v, .nonBooleanRoot v ∈ (e.evaluate s).events →
        ∃ before, (e.evaluate s).events = before ++ [.nonBooleanRoot v, .returned false] ∧
          ∀ w, .nonBooleanRoot w ∉ before) ∧
      ((e.evaluate s).events.filterMap Event.unbound?).Sublist e.unboundNames ∧
      (e.IsStrict → (∃ v, eval s e = .ok v) →
        (e.evaluate s).events.filterMap Event.unbound? = e.unboundNames) ∧
      (e.evaluate s).events.countP Event.isOperand ≤ e.logicalNodes := by
  have haccount := accountedBy_run s e
  rw [filterMap_unbound?_evaluate, countP_isOperand_evaluate]
  refine ⟨?_, fun v => nonBooleanRoot_mem_iff, fun v hmem => ?_, haccount.unbound,
    fun hstrict ⟨v, hv⟩ => hstrict.filterMap_unbound?_run hv, haccount.operands⟩
  -- between the opening and the closing record stand those of the run and of the root
  · refine ⟨((run s e).events ++ rootEvents (eval s e)).map Event.record, ?_, ?_⟩
    · rw [events_evaluate, List.map_append, List.map_cons, List.map_singleton, record_closing]
      rfl
    · refine List.forall_mem_map.2 fun ev hev => Event.record_of_inner ?_
      refine (List.mem_append.1 hev).imp (haccount.others ev) fun hroot => ?_
      exact (mem_rootEvents_iff.1 hroot).imp fun _ h => h.1
  · obtain ⟨hv, hkind⟩ := nonBooleanRoot_mem_iff.1 hmem
    refine ⟨_, events_evaluate_of_kind_ne hv hkind, fun w => ?_⟩
    rw [List.mem_cons, not_or]
    exact ⟨nofun, nonBooleanRoot_not_mem_run s e w⟩

/-- A comparison with a sum of unbound variables names them both, and the mark of the
first is no truth value. -/
theorem log_of_unbound_sum_is_faithful :
    (∃ before, (evaluate ⟨640, 480, .rgb, false, 3, 3, false, true⟩
        (.binary .eq (.binary .add (.param "a") (.param "b")) (.param "PSHOP_ImageWidth"))).events =
          before ++ [.nonBooleanRoot (.undefined "a"), .returned false] ∧
        ∀ w, .nonBooleanRoot w ∉ before) ∧
      (evaluate ⟨640, 480, .rgb, false, 3, 3, false, true⟩
        (.binary .eq (.binary .add (.param "a") (.param "b"))
          (.param "PSHOP_ImageWidth"))).events.filterMap Event.unbound? = ["a", "b"] := by
  obtain ⟨-, hroot, hbefore, -, hnames, -⟩ :=
    log_is_faithful ⟨640, 480, .rgb, false, 3, 3, false, true⟩
      (.binary .eq (.binary .add (.param "a") (.param "b")) (.param "PSHOP_ImageWidth"))
  refine ⟨hbefore _ ((hroot _).2 ⟨rfl, nofun⟩), ?_⟩
  exact hnames (.binary (.binary .param .param) .param) ⟨_, rfl⟩

/-- What is not come to is not logged. -/
example :
    (evaluate ⟨640, 480, .rgb, false, 3, 3, false, true⟩
      (.logical .and (.const (.integer 1)) (.param "a"))).events =
      [.evaluating (.logical .and (.const (.integer 1)) (.param "a")),
        .nonBooleanOperand .and .left (.integer 1), .returned false] := rfl

end Expr
end Enablement
