import Enablement.Condition
import Enablement.Proofs.Expr.Recognition

/-!
# Parsing — how deep a tree may be

What walks over a tree relies on the limit that its parser kept. A node built
from others is held to that limit when it is built, and a leaf is built
without asking. So a limit of one or more bounds the depth of every tree that
is read (`Expr.depth_within_limit`). A limit of zero bounds none, since a leaf
is one deep; but then leaves are all that is read.
-/

namespace Enablement
namespace Expr

variable {limit : Nat} {s : Stream} {e : Expr}

/-- A leaf is one deep, and the limit bounds the depth of all else. -/
theorem depth_eq_max_boundedDepth (e : Expr) : e.depth = max 1 e.boundedDepth := by
  have hpos := e.depth_pos
  cases e with
  | const | param => rfl
  | unary | binary | logical | call => exact (Nat.max_eq_right hpos).symm

/-- A tree that is read is no deeper than the limit, or it is a leaf. -/
theorem depth_le_max_of_ofStream (h : ofStream limit s = .ok e) : e.depth ≤ max 1 limit := by
  have hbounded := boundedDepth_le_of_ofStream h
  rw [depth_eq_max_boundedDepth]
  omega

/-- **What is read is within its limit exactly if that is not zero**, whether it is
read from a source or from tokens. Under a limit of zero only leaves are read. -/
theorem depth_within_limit (o : Options) (e : Expr)
    (h : (∃ source, (parse o source).result = .ok e) ∨ ∃ ts, ofTokens o.maxDepth ts = .ok e) :
    (e.depth ≤ o.maxDepth ↔ 0 < o.maxDepth) ∧ (o.maxDepth = 0 → e.depth = 1) := by
  have hle : e.depth ≤ max 1 o.maxDepth := by
    rcases h with ⟨source, hparse⟩ | ⟨ts, htokens⟩
    · obtain ⟨s, -, hs⟩ := bind_eq_ok hparse
      exact depth_le_max_of_ofStream hs
    · exact depth_le_max_of_ofStream htokens
  have hpos := e.depth_pos
  refine ⟨⟨fun hbound => ?_, fun hlimit => ?_⟩, fun hzero => ?_⟩ <;> omega

/-- A chain of two additions is as deep as the limit that it is read under. -/
theorem depth_of_chain_within_limit :
    (binary .add (.binary .add (.param "a") (.param "b")) (.param "c")).depth ≤ 3 :=
  (depth_within_limit ⟨3, false⟩ _ (.inl ⟨"a + b + c", rfl⟩)).1.2 (by decide)

/-- Under a limit of zero a number is read, and it is deeper than that. -/
theorem not_depth_le_limit_zero :
    ¬ ∀ (o : Options) (source : String) (e : Expr), (parse o source).result = .ok e →
      e.depth ≤ o.maxDepth := by
  intro h
  have hread := h ⟨0, false⟩ "1" (.const (.integer 1)) rfl
  exact Nat.not_succ_le_zero 0 hread

end Expr
end Enablement
