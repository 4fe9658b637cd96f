import Enablement.Proofs.VerdictCache.Transparency

/-!
# Verdict caches — how full a cache is, and what it logs

How many verdicts a cache holds depends on how many it has found since it was
last cleared, and not on what they are or what it was asked in between
(`VerdictCache.occupancy`). It is filled one by one up to its limit, and the
verdict after that empties it and is the first of the next filling
(`VerdictCache.Flushes`). This is all that a cache logs by itself; it hands on
what is logged by the evaluations that it asks for, and logs nothing where it
has the verdict.
-/

namespace Enablement
namespace VerdictCache

variable {c : VerdictCache} {s : Snapshot} {verdict : Bool} {limit m : Nat}

/-! ## Verdicts found and verdicts held -/

/-- Whether an evaluation gives a verdict that the cache does not hold. -/
def isNew (c : VerdictCache) (s : Snapshot) : Bool :=
  (c.get? s).isNone && (c.condition.evaluate s).result.isOk

/-- The verdicts found since the cache was last cleared, after a request; `m` are those
before it. -/
def count (c : VerdictCache) (m : Nat) : Request → Nat
  | .evaluate s => if c.isNew s then m + 1 else m
  | .clear => 0

/-- The verdicts found since the cache was last cleared, after requests in a row. -/
def countAll (c : VerdictCache) (m : Nat) : List Request → Nat
  | [] => m
  | r :: rs => countAll (c.perform r).2 (c.count m r) rs

/-- How many verdicts are held of `m` that were found. -/
def occupancy (limit m : Nat) : Nat :=
  if limit = 0 ∨ m = 0 then 0 else (m - 1) % limit + 1

/-- The last of `m` verdicts found empties the cache. -/
def Flushes (limit m : Nat) : Prop := 0 < limit ∧ 1 < m ∧ (m - 1) % limit = 0

instance (limit m : Nat) : Decidable (Flushes limit m) := inferInstanceAs (Decidable (_ ∧ _))

/-- Before the first verdict nothing is held. -/
theorem occupancy_zero (limit : Nat) : occupancy limit 0 = 0 := if_pos (.inr rfl)

/-- One verdict after `m` of them: what is left of `m` after the last full round, and this
one. -/
theorem occupancy_succ_of_pos (h : 0 < limit) (m : Nat) :
    occupancy limit (m + 1) = m % limit + 1 := by
  rw [occupancy, if_neg (by omega), Nat.add_sub_cancel]

/-- **A cache is full exactly when the next verdict empties it.** -/
theorem le_occupancy_iff (h : 0 < limit) (m : Nat) :
    limit ≤ occupancy limit m ↔ Flushes limit (m + 1) := by
  rw [Flushes, Nat.add_sub_cancel]
  cases m with
  | zero =>
    rw [occupancy_zero]
    omega
  | succ k =>
    have hlt := Nat.mod_lt k h
    have hmod : (k + 1) % limit = (k % limit + 1) % limit := (Nat.mod_add_mod k limit 1).symm
    rw [occupancy_succ_of_pos h, hmod]
    rcases Nat.lt_or_ge (k % limit + 1) limit with hfew | hfull
    · rw [Nat.mod_eq_of_lt hfew]
      omega
    · have hself : (k % limit + 1) % limit = 0 := by
        rw [show k % limit + 1 = limit by omega, Nat.mod_self]
      omega

/-- **One more verdict** is the first one, or one more than are held. -/
theorem occupancy_succ (h : 0 < limit) (m : Nat) :
    occupancy limit (m + 1) = if Flushes limit (m + 1) then 1 else occupancy limit m + 1 := by
  rw [occupancy_succ_of_pos h]
  split
  next hflush =>
    have hmod : m % limit = 0 := hflush.2.2
    rw [hmod]
  next hflush =>
    rw [← le_occupancy_iff h, Nat.not_le] at hflush
    cases m with
    | zero => rw [occupancy_zero, Nat.zero_mod]
    | succ k =>
      -- what is held is still below the limit, so the remainder does not wrap
      rw [occupancy_succ_of_pos h] at hflush ⊢
      rw [← Nat.mod_add_mod, Nat.mod_eq_of_lt hflush]

/-! ## What one request does -/

/-- `m` verdicts were found since the cache was last cleared, as far as can be seen from
how many it holds. -/
def Counts (c : VerdictCache) (m : Nat) : Prop := c.size = occupancy c.limit m

/-- The empty cache has counted no verdict. -/
theorem counts_empty (condition : Condition) (limit : Nat) : (empty condition limit).Counts 0 :=
  (occupancy_zero limit).symm

namespace Counts

/-- A cache that has counted `m` verdicts is full just if the next one flushes it. -/
theorem isFull_iff (h : c.Counts m) : c.isFull = true ↔ Flushes c.limit (m + 1) := by
  rw [VerdictCache.isFull_iff, h]
  constructor
  · rintro ⟨hpos, hfull⟩
    exact (le_occupancy_iff hpos m).1 hfull
  · intro hflush
    exact ⟨hflush.1, (le_occupancy_iff hflush.1 m).2 hflush⟩

/-- Putting in a verdict is counted. -/
theorem insert (h : c.Counts m) (s : Snapshot) (verdict : Bool) :
    (c.insert s verdict).Counts (m + 1) := by
  rw [Counts, limit_insert]
  unfold VerdictCache.insert
  split
  next hzero => rw [h, occupancy, occupancy, if_pos (.inl hzero), if_pos (.inl hzero)]
  next hzero =>
    rw [occupancy_succ (Nat.pos_of_ne_zero hzero), ← h]
    simp only [h.isFull_iff]
    split <;> rfl

/-- **One request** keeps the count. -/
theorem perform (h : c.Counts m) (r : Request) : (c.perform r).2.Counts (c.count m r) := by
  cases r with
  | clear => exact counts_empty c.condition c.limit
  | evaluate s =>
    rw [VerdictCache.perform, count, isNew]
    -- only a verdict that is not held and is no fault is new, and only it is put in
    obtain ⟨verdict, hget, heval⟩ | ⟨f, hget, hresult, heval⟩ | ⟨verdict, hget, hresult, heval⟩ :=
      c.evaluate_cases s
    · rw [heval, hget]
      exact h
    · rw [heval, hget, hresult]
      exact h
    · rw [heval, hget, hresult]
      exact h.insert s verdict

/-- **Requests in a row** keep it. -/
theorem run (h : c.Counts m) (rs : List Request) : (c.run rs).2.Counts (c.countAll m rs) := by
  induction rs generalizing c m with
  | nil => exact h
  | cons r rs ih => exact ih (h.perform r)

end Counts

/-! ## One more request -/

/-- A history is its first request and then the rest from the cache after it. -/
theorem run_cons (c : VerdictCache) (r : Request) (rs : List Request) :
    c.run (r :: rs) =
      ((c.perform r).1 :: ((c.perform r).2.run rs).1, ((c.perform r).2.run rs).2) := rfl

/-- A last request is performed on the cache that the others leave. -/
theorem run_concat (c : VerdictCache) (rs : List Request) (r : Request) :
    c.run (rs ++ [r]) =
      ((c.run rs).1 ++ [((c.run rs).2.perform r).1], ((c.run rs).2.perform r).2) := by
  induction rs generalizing c with
  | nil => rfl
  | cons r' rs ih => rw [List.cons_append, run_cons, run_cons, ih, List.cons_append]

/-- And counted on it. -/
theorem countAll_concat (c : VerdictCache) (m : Nat) (rs : List Request) (r : Request) :
    c.countAll m (rs ++ [r]) = (c.run rs).2.count (c.countAll m rs) r := by
  induction rs generalizing c m with
  | nil => rfl
  | cons r' rs ih => exact ih _ _

/-! ## A new cache and what it was asked -/

/-- What a new cache answers to requests in a row. -/
def answers (condition : Condition) (limit : Nat) (rs : List Request) :
    List (Option (Logged Bool)) :=
  ((empty condition limit).run rs).1

/-- What they leave of it. -/
def after (condition : Condition) (limit : Nat) (rs : List Request) : VerdictCache :=
  ((empty condition limit).run rs).2

/-- And the verdicts that it has found since it was last cleared. -/
def found (condition : Condition) (limit : Nat) (rs : List Request) : Nat :=
  (empty condition limit).countAll 0 rs

/-- **How full a cache is, and what it logs.** At any time it holds as many verdicts as
were found since it was last cleared, counted anew behind each multiple of the limit. One
that it holds is given again, with nothing logged and nothing changed. A fault changes
nothing either, and only its evaluation is logged. A verdict that is found is counted,
and behind its evaluation it is logged that the cache is emptied, if it is for this
verdict, and nothing else. -/
theorem occupancy_and_log (condition : Condition) (limit : Nat) (rs : List Request) :
    (after condition limit rs).size = occupancy limit (found condition limit rs) ∧
      ∀ s,
        (∀ verdict, (after condition limit rs).get? s = some verdict →
          answers condition limit (rs ++ [.evaluate s]) =
              answers condition limit rs ++ [some ⟨[], .ok verdict⟩] ∧
            after condition limit (rs ++ [.evaluate s]) = after condition limit rs) ∧
        (∀ f, (after condition limit rs).get? s = none →
          (condition.evaluate s).result = .error f →
          answers condition limit (rs ++ [.evaluate s]) =
              answers condition limit rs ++ [some (condition.evaluate s)] ∧
            after condition limit (rs ++ [.evaluate s]) = after condition limit rs) ∧
        ∀ verdict, (after condition limit rs).get? s = none →
          (condition.evaluate s).result = .ok verdict →
          found condition limit (rs ++ [.evaluate s]) = found condition limit rs + 1 ∧
            answers condition limit (rs ++ [.evaluate s]) =
              answers condition limit rs ++
                [some ⟨(condition.evaluate s).events ++
                  (if Flushes limit (found condition limit (rs ++ [.evaluate s])) then
                    [.cacheFlushed limit] else []), .ok verdict⟩] := by
  obtain ⟨-, -, hrun⟩ := (faithful_empty condition limit).run rs
  obtain ⟨hcondition, hlimit⟩ : (after condition limit rs).condition = condition ∧
    (after condition limit rs).limit = limit := hrun
  have hcounts : (after condition limit rs).Counts (found condition limit rs) :=
    (counts_empty condition limit).run rs
  -- one more evaluation is one step of the cache that the history leaves
  have hnext (s : Snapshot) : answers condition limit (rs ++ [.evaluate s]) =
      answers condition limit rs ++ [some ((after condition limit rs).evaluate s).1] ∧
        after condition limit (rs ++ [.evaluate s]) = ((after condition limit rs).evaluate s).2 :=
    Prod.mk.inj (run_concat (empty condition limit) rs (.evaluate s))
  refine ⟨by rw [hcounts, hlimit], fun s => ?_⟩
  rw [(hnext s).1, (hnext s).2]
  refine ⟨fun verdict hget => ?_, fun f hget hresult => ?_, fun verdict hget hresult => ?_⟩
  · rw [evaluate_of_get? hget]
    exact ⟨rfl, rfl⟩
  · rw [← hcondition] at hresult
    rw [evaluate_of_error hget hresult, hcondition]
    exact ⟨rfl, rfl⟩
  -- the only one of the three cases that counts
  · have hnew : (after condition limit rs).isNew s = true := by
      rw [isNew, hget, hcondition, hresult]
      rfl
    have hfound : found condition limit (rs ++ [.evaluate s]) = found condition limit rs + 1 :=
      (countAll_concat (empty condition limit) 0 rs (.evaluate s)).trans (if_pos hnew)
    refine ⟨hfound, ?_⟩
    rw [← hcondition] at hresult
    rw [evaluate_of_ok hget hresult, hcondition, hlimit, hfound]
    simp only [hcounts.isFull_iff, hlimit]

/-- A cache of one verdict that holds the one on a document of width 640 gives it again,
hands on the fault for a width of zero, and is emptied for the verdict on a width of 320. -/
theorem log_of_full_cache :
    answers ⟨"1 / PSHOP_ImageWidth", .binary .divide (.const (.integer 1))
          (.param "PSHOP_ImageWidth")⟩ 1
        ([.evaluate ⟨640, 480, .rgb, false, 3, 3, false, true⟩] ++
          [.evaluate ⟨640, 480, .rgb, false, 3, 3, false, true⟩]) =
        answers ⟨"1 / PSHOP_ImageWidth", .binary .divide (.const (.integer 1))
          (.param "PSHOP_ImageWidth")⟩ 1
          [.evaluate ⟨640, 480, .rgb, false, 3, 3, false, true⟩] ++ [some ⟨[], .ok false⟩] ∧
      (after ⟨"1 / PSHOP_ImageWidth", .binary .divide (.const (.integer 1))
          (.param "PSHOP_ImageWidth")⟩ 1
        ([.evaluate ⟨640, 480, .rgb, false, 3, 3, false, true⟩] ++
          [.evaluate ⟨0, 480, .rgb, false, 3, 3, false, true⟩])).size = 1 ∧
      Flushes 1 (found ⟨"1 / PSHOP_ImageWidth", .binary .divide (.const (.integer 1))
          (.param "PSHOP_ImageWidth")⟩ 1
        ([.evaluate ⟨640, 480, .rgb, false, 3, 3, false, true⟩] ++
          [.evaluate ⟨320, 480, .rgb, false, 3, 3, false, true⟩])) := by
  obtain ⟨hsize, hlog⟩ := occupancy_and_log ⟨"1 / PSHOP_ImageWidth",
    .binary .divide (.const (.integer 1)) (.param "PSHOP_ImageWidth")⟩ 1
    [.evaluate ⟨640, 480, .rgb, false, 3, 3, false, true⟩]
  refine ⟨((hlog _).1 false rfl).1, ?_, ?_⟩
  · rw [((hlog ⟨0, 480, .rgb, false, 3, 3, false, true⟩).2.1 .divisionByZero rfl rfl).2, hsize]
    rfl
  · rw [((hlog ⟨320, 480, .rgb, false, 3, 3, false, true⟩).2.2 false rfl rfl).1]
    decide

end VerdictCache
end Enablement
