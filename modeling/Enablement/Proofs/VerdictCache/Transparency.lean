import Enablement.VerdictCache

/-!
# Verdict caches — a cache answers as its condition does

A cache is asked for verdicts and cleared, in any order and as often as one
likes (`VerdictCache.run`). Whatever was asked before, its answer is that of
its condition: a verdict is only remembered as the condition gave it, once for
each document, and no more of them than the limit allows
(`VerdictCache.Faithful`).
-/

namespace Enablement

/-- What is done to a cache. -/
inductive Request
  /-- It is asked for the verdict on a document. -/
  | evaluate (s : Snapshot)
  /-- It is emptied. -/
  | clear
deriving DecidableEq, Repr

/-- What the condition itself answers to a request. -/
def Condition.answer (c : Condition) : Request → Option (Except Fault Bool)
  | .evaluate s => some (c.evaluate s).result
  | .clear => none

namespace VerdictCache

variable {c : VerdictCache} {s : Snapshot} {verdict : Bool}

/-! ## Requests in a row -/

/-- The answer to one request, where it has one, and the cache afterwards. -/
def perform (c : VerdictCache) : Request → Option (Logged Bool) × VerdictCache
  | .evaluate s => (some (c.evaluate s).1, (c.evaluate s).2)
  | .clear => (none, c.clear)

/-- The answers to requests in a row, and the cache after them all. -/
def run (c : VerdictCache) : List Request → List (Option (Logged Bool)) × VerdictCache
  | [] => ([], c)
  | r :: rs =>
    let (answer, c) := c.perform r
    let (answers, c) := c.run rs
    (answer :: answers, c)

/-! ## What one request does -/

/-- A new verdict does not change what is evaluated. -/
@[simp] theorem condition_insert : (c.insert s verdict).condition = c.condition := by
  unfold insert
  split
  · rfl
  split <;> rfl

/-- Nor the limit. -/
@[simp] theorem limit_insert : (c.insert s verdict).limit = c.limit := by
  unfold insert
  split
  · rfl
  split <;> rfl

/-- An entry of the cache with a new verdict is the new one, or was held before. -/
theorem eq_or_mem_of_mem_insert {entry : Snapshot × Bool}
    (h : entry ∈ (c.insert s verdict).entries) : entry = (s, verdict) ∨ entry ∈ c.entries := by
  unfold insert at h
  split at h
  · exact .inr h
  split at h
  · exact .inl (List.mem_singleton.1 h)
  · exact List.mem_cons.1 h

/-- A document without a verdict is not among those that are held. -/
theorem not_mem_of_get?_eq_none (h : c.get? s = none) : s ∉ c.entries.map Prod.fst := by
  intro hmem
  obtain ⟨⟨s', b⟩, hentry, rfl⟩ := List.mem_map.1 hmem
  simpa using List.lookup_eq_none_iff.1 h _ hentry

/-- A verdict that is held is given again. -/
theorem evaluate_of_get? (hget : c.get? s = some verdict) : c.evaluate s = (pure verdict, c) := by
  rw [evaluate, hget]

/-- A fault is handed on. -/
theorem evaluate_of_error {f : Fault} (hget : c.get? s = none)
    (hresult : (c.condition.evaluate s).result = .error f) :
    c.evaluate s = (c.condition.evaluate s, c) := by
  rw [evaluate, hget]
  simp only [hresult]

/-- A verdict that is found is put in. -/
theorem evaluate_of_ok (hget : c.get? s = none)
    (hresult : (c.condition.evaluate s).result = .ok verdict) :
    c.evaluate s =
      (⟨(c.condition.evaluate s).events ++
          (if c.isFull then [Event.cacheFlushed c.limit] else []), .ok verdict⟩,
        c.insert s verdict) := by
  rw [evaluate, hget]
  simp only [hresult]

/-- **What an evaluation does.** It finds a verdict and changes nothing; or it
finds none and ends in a fault, and changes nothing; or it finds none, and the
new verdict is put in. -/
theorem evaluate_cases (c : VerdictCache) (s : Snapshot) :
    (∃ verdict, c.get? s = some verdict ∧ c.evaluate s = (pure verdict, c)) ∨
      (∃ f, c.get? s = none ∧ (c.condition.evaluate s).result = .error f ∧
        c.evaluate s = (c.condition.evaluate s, c)) ∨
      ∃ verdict, c.get? s = none ∧ (c.condition.evaluate s).result = .ok verdict ∧
        c.evaluate s =
          (⟨(c.condition.evaluate s).events ++
              (if c.isFull then [Event.cacheFlushed c.limit] else []), .ok verdict⟩,
            c.insert s verdict) := by
  cases hget : c.get? s with
  | some verdict => exact .inl ⟨verdict, rfl, evaluate_of_get? hget⟩
  | none =>
    cases hresult : (c.condition.evaluate s).result with
    | error f => exact .inr (.inl ⟨f, rfl, rfl, evaluate_of_error hget hresult⟩)
    | ok verdict => exact .inr (.inr ⟨verdict, rfl, rfl, evaluate_of_ok hget hresult⟩)

/-! ## What every cache keeps -/

/-- **The cache remembers what its condition said.** -/
structure Faithful (c : VerdictCache) : Prop where
  /-- Every verdict held is that of the condition. -/
  verdicts : ∀ s verdict, (s, verdict) ∈ c.entries → (c.condition.evaluate s).result = .ok verdict
  /-- No document has two of them. -/
  distinct : (c.entries.map Prod.fst).Nodup
  /-- There are no more than the limit allows. -/
  bounded : c.size ≤ c.limit

/-- The empty cache holds no verdict, so none that is wrong. -/
theorem faithful_empty (condition : Condition) (limit : Nat) :
    (empty condition limit).Faithful where
  verdicts _ _ h := by cases h
  distinct := List.nodup_nil
  bounded := Nat.zero_le _

/-- And so does a cache that was cleared. -/
theorem faithful_clear (c : VerdictCache) : c.clear.Faithful := faithful_empty c.condition c.limit

namespace Faithful

/-- A verdict that is found is that of the condition. -/
theorem result_of_get? (h : c.Faithful) (hget : c.get? s = some verdict) :
    (c.condition.evaluate s).result = .ok verdict := by
  refine h.verdicts s verdict ?_
  obtain ⟨before, after, hentries, -⟩ := List.lookup_eq_some_iff.1 hget
  rw [hentries]
  simp

/-- A verdict of the condition may be put in for a document that has none. -/
theorem insert (h : c.Faithful) (hget : c.get? s = none)
    (hresult : (c.condition.evaluate s).result = .ok verdict) :
    (c.insert s verdict).Faithful := by
  have hbounded := size_insert_le s verdict h.bounded
  refine ⟨?_, ?_, by rw [limit_insert]; exact hbounded⟩
  · rw [condition_insert]
    intro s' b hmem
    rcases eq_or_mem_of_mem_insert hmem with heq | hold
    · obtain ⟨rfl, rfl⟩ := Prod.mk.inj heq
      exact hresult
    · exact h.verdicts s' b hold
  · unfold VerdictCache.insert
    split
    · exact h.distinct
    split
    · exact List.pairwise_singleton _ _
    · exact List.nodup_cons.2 ⟨not_mem_of_get?_eq_none hget, h.distinct⟩

/-- **One request** is answered as the condition answers it, and leaves a
faithful cache of the same condition and limit. -/
theorem perform (h : c.Faithful) (r : Request) :
    (c.perform r).1.map (·.result) = c.condition.answer r ∧
      (c.perform r).2.Faithful ∧
      (c.perform r).2.condition = c.condition ∧ (c.perform r).2.limit = c.limit := by
  cases r with
  | clear => exact ⟨rfl, c.faithful_clear, rfl, rfl⟩
  | evaluate s =>
    simp only [VerdictCache.perform, Condition.answer, Option.map_some]
    obtain ⟨verdict, hget, heval⟩ | ⟨f, hget, hresult, heval⟩ | ⟨verdict, hget, hresult, heval⟩ :=
      c.evaluate_cases s
    · rw [heval, h.result_of_get? hget]
      exact ⟨rfl, h, rfl, rfl⟩
    · rw [heval]
      exact ⟨rfl, h, rfl, rfl⟩
    · rw [heval, hresult]
      exact ⟨rfl, h.insert hget hresult, condition_insert, limit_insert⟩

/-- **Requests in a row** are each answered as the condition answers them. -/
theorem run (h : c.Faithful) (rs : List Request) :
    (c.run rs).1.map (Option.map (·.result)) = rs.map c.condition.answer ∧
      (c.run rs).2.Faithful ∧
      (c.run rs).2.condition = c.condition ∧ (c.run rs).2.limit = c.limit := by
  induction rs generalizing c with
  | nil => exact ⟨rfl, h, rfl, rfl⟩
  | cons r rs ih =>
    obtain ⟨hanswer, hnext, hcondition, hlimit⟩ := h.perform r
    obtain ⟨hanswers, hlast, hcondition', hlimit'⟩ := ih hnext
    refine ⟨?_, hlast, hcondition'.trans hcondition, hlimit'.trans hlimit⟩
    -- the next cache is one of the same condition
    rw [hcondition] at hanswers
    exact List.cons_eq_cons.2 ⟨hanswer, hanswers⟩

end Faithful

/-- **A cache cannot be told from its condition.** Asked and cleared in any
order, a new cache gives to every request the answer of its condition; and
what it then holds are verdicts of the condition, one for each document at
most, and no more than the limit. -/
theorem run_empty_transparent (condition : Condition) (limit : Nat) (rs : List Request) :
    ((empty condition limit).run rs).1.map (Option.map (·.result)) =
        rs.map condition.answer ∧
      (∀ s verdict, (s, verdict) ∈ ((empty condition limit).run rs).2.entries →
        (condition.evaluate s).result = .ok verdict) ∧
      (((empty condition limit).run rs).2.entries.map Prod.fst).Nodup ∧
      ((empty condition limit).run rs).2.size ≤ limit := by
  obtain ⟨hanswers, hlast, hcondition, hlimit⟩ := (faithful_empty condition limit).run rs
  refine ⟨hanswers, fun s verdict hmem => ?_, hlast.distinct, ?_⟩
  · have := hlast.verdicts s verdict hmem
    rwa [hcondition] at this
  · have := hlast.bounded
    rwa [hlimit] at this

end VerdictCache
end Enablement
