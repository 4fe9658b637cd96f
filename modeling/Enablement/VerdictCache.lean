import Enablement.Condition

/-!
# Verdict caches — remembering verdicts

A cache holds the verdicts of one condition on the documents asked about. It
never holds more than its limit: a new verdict that finds it full empties it
first. Faults are not remembered, so they are found again each time.
-/

namespace Enablement

/-- A condition and the verdicts known of it. -/
structure VerdictCache where
  /-- What is evaluated. -/
  condition : Condition
  /-- The greatest number of verdicts held; with 0 none is held. -/
  limit : Nat
  /-- The verdicts known, the latest first. They are a finite map that one caller at a
  time looks into and changes. -/
  entries : List (Snapshot × Bool)
deriving DecidableEq, Repr

namespace VerdictCache

/-- The limit of a cache unless another is asked for. -/
def defaultLimit : Nat := 1024

/-- The empty cache. -/
def empty (c : Condition) (limit : Nat) : VerdictCache := ⟨c, limit, []⟩

/-- The number of verdicts held. -/
def size (c : VerdictCache) : Nat := c.entries.length

/-- The verdict held for a document. -/
def get? (c : VerdictCache) (s : Snapshot) : Option Bool := c.entries.lookup s

/-- The cache without verdicts. -/
def clear (c : VerdictCache) : VerdictCache := { c with entries := [] }

/-- Whether a new verdict empties the cache first. -/
def isFull (c : VerdictCache) : Bool := 0 < c.limit && c.limit ≤ c.size

/-- The cache that also holds a new verdict, if it can hold any. -/
def insert (c : VerdictCache) (s : Snapshot) (verdict : Bool) : VerdictCache :=
  if c.limit = 0 then c
  else if c.isFull then { c with entries := [(s, verdict)] }
  else { c with entries := (s, verdict) :: c.entries }

/-- A cache is full when it holds as many verdicts as it may, if it may hold any. -/
theorem isFull_iff {c : VerdictCache} : c.isFull = true ↔ 0 < c.limit ∧ c.limit ≤ c.size := by
  simp [isFull]

/-- A new verdict takes a cache beyond no limit that it kept. -/
theorem size_insert_le {c : VerdictCache} (s : Snapshot) (verdict : Bool)
    (h : c.size ≤ c.limit) : (c.insert s verdict).size ≤ c.limit := by
  unfold insert
  split
  · exact h
  split
  next h₀ _ => exact Nat.pos_of_ne_zero h₀
  next h₀ h₁ =>
    rw [isFull_iff, not_and] at h₁
    exact Nat.lt_of_not_le (h₁ (Nat.pos_of_ne_zero h₀))

/-- **The verdict on a document**, held or new, and the cache afterwards. -/
def evaluate (c : VerdictCache) (s : Snapshot) : Logged Bool × VerdictCache :=
  match c.get? s with
  | some verdict => (pure verdict, c)
  | none =>
    let r := c.condition.evaluate s
    match r.result with
    | .error _ => (r, c)
    | .ok verdict =>
      let flushed := if c.isFull then [Event.cacheFlushed c.limit] else []
      (⟨r.events ++ flushed, r.result⟩, c.insert s verdict)

end VerdictCache
end Enablement
