import Enablement.Proofs.Expr.Nesting
import Enablement.Proofs.Expr.Soundness

/-!
# Parsing — the parser recognises the grammar

Whatever derives takes some number of levels of nesting, not above the number
of its lexemes, and so does the depth of its tree. Under a limit that is not
below the number of lexemes it is therefore read. With what a parser reads
being spelled, the parser and the grammar give the same trees, and no lexemes
spell two.
-/

namespace Enablement

/-! ## What derives takes some number of levels -/

mutual

/-- **A phrase takes no more levels than it has lexemes.** -/
theorem Derives.exists_nests {x : Phrase} {ts : List Lexeme} {e : Expr} :
    Derives x ts e → ∃ c, c ≤ ts.length ∧ Nests x c ts e
  | .chain hc h₁ h₂ => by
    obtain ⟨hrank, -, hops⟩ := Phrase.rank_of_chain? hc
    obtain ⟨c, hle, hl⟩ := h₁.exists_nests
    obtain ⟨d, hle', he⟩ := h₂.exists_nests fun op hop => ((hops op).1 hop).trans hrank
    exact ⟨max c d, by rw [List.length_append]; omega, hl.chain hc he⟩
  | .unary h => by
    obtain ⟨c, hle, hx⟩ := h.exists_nests
    exact ⟨1 + c, by rw [List.length_cons]; omega, hx.unary⟩
  | .primary h => by
    obtain ⟨c, hle, hx⟩ := h.exists_nests
    exact ⟨c, hle, hx.primary⟩
  | .integer hi => ⟨0, Nat.zero_le _, .leaf rfl fun p _ _ _ _ => p.unary_integer hi⟩
  | .boolean => ⟨0, Nat.zero_le _, .leaf rfl fun p _ _ _ _ => p.unary_boolean⟩
  | .string => ⟨0, Nat.zero_le _, .leaf rfl fun p _ _ _ _ => p.unary_string⟩
  | .param => ⟨0, Nat.zero_le _, .leaf rfl fun p _ _ _ h => p.unary_param h⟩
  | .call h => by
    obtain ⟨c, hle, hes⟩ := h.exists_nests
    exact ⟨1 + c, by simp only [List.length_cons, List.length_append]; omega, hes.call⟩
  | .parentheses h => by
    obtain ⟨c, hle, hx⟩ := h.exists_nests
    exact ⟨1 + c, by simp only [List.length_cons, List.length_append]; omega, hx.parentheses⟩

/-- A chain takes no more levels than it has lexemes. -/
theorem DerivesChain.exists_nests {ops : List Operator} {y : Phrase} {l e : Expr}
    {us : List Lexeme} : DerivesChain ops y l us e → (∀ op ∈ ops, op.rank = y.rank + 1) →
    ∃ c, c ≤ us.length ∧ NestsChain y c l us e
  | .done, _ => ⟨0, Nat.zero_le _, .done⟩
  | .more hop h₁ h₂, hops => by
    obtain ⟨c, hle, hr⟩ := h₁.exists_nests
    obtain ⟨d, hle', he⟩ := h₂.exists_nests hops
    exact ⟨max c d, by simp only [List.length_cons, List.length_append]; omega,
      .more (hops _ hop) hr he⟩

/-- Nor do arguments. -/
theorem DerivesArguments.exists_nests {us : List Lexeme} {es : List Expr} :
    DerivesArguments us es → ∃ c, c ≤ us.length ∧ NestsArguments c us es
  | .none => ⟨0, Nat.zero_le _, .none⟩
  | .some h₁ h₂ => by
    obtain ⟨c, hle, he⟩ := h₁.exists_nests
    obtain ⟨d, hle', hes⟩ := h₂.exists_nests
    exact ⟨max c d, by rw [List.length_append]; omega, .some h₁.exists_cons he hes⟩

/-- Nor do those behind the first. -/
theorem DerivesMore.exists_nests {us : List Lexeme} {es : List Expr} :
    DerivesMore us es → ∃ c, c ≤ us.length ∧ NestsMore c us es
  | .done => ⟨0, Nat.zero_le _, .done⟩
  | .more h₁ h₂ => by
    obtain ⟨c, hle, he⟩ := h₁.exists_nests
    obtain ⟨d, hle', hes⟩ := h₂.exists_nests
    exact ⟨max c d, by simp only [List.length_cons, List.length_append]; omega, .more he hes⟩

end

/-! ## The parser and the grammar -/

namespace Expr

variable {limit : Nat} {s : Stream} {e : Expr}

/-- A tree that is read is no deeper than the limit, unless it is a leaf. -/
theorem boundedDepth_le_of_ofStream (h : ofStream limit s = .ok e) : e.boundedDepth ≤ limit := by
  obtain ⟨c, -, hnests⟩ := (Parser.derives_of_whole _ h).exists_nests
  have hs := hnests.settled_ofStream limit
  -- beyond the threshold the result would have been the fault
  by_cases hc : max c e.boundedDepth ≤ limit
  · omega
  · obtain ⟨place, hfault⟩ := hs.fault hc
    rw [h] at hfault
    cases hfault

/-- **A stream is read as what its lexemes derive.** -/
theorem ofStream_eq_ok_iff (hs : s.lexemes.length ≤ limit) :
    ofStream limit s = .ok e ↔ Derives .or (s.lexemes.map (·.val)) e := by
  refine ⟨fun h => Parser.derives_of_whole _ h, fun h => ?_⟩
  obtain ⟨c, hle, hnests⟩ := h.exists_nests
  have hdepth := h.depth_le_length
  have hbounded := e.boundedDepth_le_depth
  rw [List.length_map] at hle hdepth
  exact (hnests.settled_ofStream limit).ok (by omega)

end Expr

/-- And so the grammar gives no two trees to the same lexemes. -/
theorem Derives.unique {ts : List Lexeme} {e₁ e₂ : Expr} (h₁ : Derives .or ts e₁)
    (h₂ : Derives .or ts e₂) : e₁ = e₂ := by
  -- one stream of these lexemes is read as both
  let s : Stream := ⟨ts.map (⟨·, 0⟩), 0⟩
  have hs : s.lexemes.map (·.val) = ts := by simp [s, Function.comp_def]
  have hr₁ := (Expr.ofStream_eq_ok_iff (Nat.le_refl s.lexemes.length)).2 (hs.symm ▸ h₁)
  have hr₂ := (Expr.ofStream_eq_ok_iff (Nat.le_refl s.lexemes.length)).2 (hs.symm ▸ h₂)
  exact Except.ok.inj (hr₁.symm.trans hr₂)

/-- A list of tokens without an end has these lexemes. -/
theorem Stream.lexemes_ofTokensFrom (stop : Nat) (ls : List (Located Lexeme)) :
    (ofTokensFrom stop (ls.map fun l => ⟨some l.val, l.offset⟩)).lexemes = ls := by
  induction ls generalizing stop with
  | nil => rfl
  | cons l ls ih => simp [ofTokensFrom, ih]

/-- **The parser recognises the grammar.** A list of tokens without an end of
input is read as a tree, under a limit that is not below its length, if and
only if its lexemes derive the tree; and they derive one tree at most. -/
theorem ofTokens_eq_ok_iff_derives (ls : List (Located Lexeme)) (limit : Nat)
    (h : ls.length ≤ limit) (e : Expr) :
    (Expr.ofTokens limit (ls.map fun l => ⟨some l.val, l.offset⟩) = .ok e ↔
        Derives .or (ls.map (·.val)) e) ∧
      ∀ e', Derives .or (ls.map (·.val)) e → Derives .or (ls.map (·.val)) e' → e = e' := by
  have hls := Stream.lexemes_ofTokensFrom 0 ls
  refine ⟨?_, fun e' h₁ h₂ => h₁.unique h₂⟩
  rw [Expr.ofTokens, Expr.ofStream_eq_ok_iff (by rw [Stream.ofTokens, hls]; exact h),
    Stream.ofTokens, hls]

/-- `- a * 2 || b == TRUE` derives one tree, under a limit of as many levels as
it has tokens. -/
theorem derives_mixed_operators :
    Derives .or
      [.symbol .minus, .identifier "a", .symbol .star, .integer "2", .symbol .or,
        .identifier "b", .symbol .eq, .boolean "TRUE"]
      (.logical .or
        (.binary .multiply (.unary .negate (.param "a")) (.const (.integer 2)))
        (.binary .eq (.param "b") (.const (.boolean true)))) :=
  (ofTokens_eq_ok_iff_derives
    [⟨.symbol .minus, 0⟩, ⟨.identifier "a", 1⟩, ⟨.symbol .star, 2⟩, ⟨.integer "2", 3⟩,
      ⟨.symbol .or, 4⟩, ⟨.identifier "b", 5⟩, ⟨.symbol .eq, 6⟩, ⟨.boolean "TRUE", 7⟩]
    8 (by decide) _).1.1 rfl

end Enablement
