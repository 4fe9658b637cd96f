import Enablement.Proofs.Condition.Encodings
import Enablement.Proofs.Expr.Places

/-!
# Conditions — units that are no text

Of 16-bit units a surrogate is one half of a pair, and it can be seen in the
units next to it whether the other half is there (`Utf16.IsUnpaired`). Decoding
takes characters off the front until it comes to such a surrogate or to the end
(`Utf16.exists_decodeFrom`), and within characters there is none. So units
decode if and only if they spell a text, and else to the position of the first
surrogate that is not paired. This is found before anything is parsed, and no
other fault is mistaken for it.
-/

namespace Enablement

namespace Text
namespace Utf16

variable {us : List UInt16} {u v : UInt16} {i j : Nat}

/-! ## Surrogates without their other halves -/

/-- At a position stands a surrogate without its other half. -/
inductive IsUnpaired (us : List UInt16) (i : Nat) : Prop
  /-- A high surrogate that no low one follows. -/
  | high {u : UInt16} : us[i]? = some u → isHigh u = true →
      (∀ v, us[i + 1]? = some v → isLow v = false) → IsUnpaired us i
  /-- A low surrogate that no high one precedes. -/
  | low {u : UInt16} : us[i]? = some u → isLow u = true →
      (∀ j v, j + 1 = i → us[j]? = some v → isHigh v = false) → IsUnpaired us i

/-- There is none before it. -/
structure IsFirstUnpaired (us : List UInt16) (i : Nat) : Prop where
  /-- It has no other half. -/
  unpaired : IsUnpaired us i
  /-- All before it have theirs. -/
  first : ∀ j < i, ¬ IsUnpaired us j

/-- The units spell a text. -/
def WellFormed (us : List UInt16) : Prop := ∃ cs, encode cs = us

/-- There is only one first. -/
theorem IsFirstUnpaired.unique (hi : IsFirstUnpaired us i) (hj : IsFirstUnpaired us j) : i = j := by
  rcases Nat.lt_trichotomy i j with h | h | h
  · exact absurd hi.unpaired (hj.first i h)
  · exact h
  · exact absurd hj.unpaired (hi.first j h)

/-- A unit in front makes no difference behind it, unless it is the high half for the
next one. -/
theorem isUnpaired_cons_succ (h : i = 0 → isHigh u = false) :
    IsUnpaired (u :: us) (i + 1) ↔ IsUnpaired us i := by
  constructor
  · rintro (⟨hu, hhigh, hnext⟩ | ⟨hu, hlow, hbefore⟩)
    · exact .high hu hhigh hnext
    · exact .low hu hlow fun j v hj hv => hbefore (j + 1) v (congrArg _ hj) hv
  · rintro (⟨hu, hhigh, hnext⟩ | ⟨hu, hlow, hbefore⟩)
    · exact .high hu hhigh hnext
    · refine .low hu hlow fun j v hj hv => ?_
      cases j with
      | zero =>
        obtain rfl := Option.some.inj hv
        exact h (Nat.succ.inj hj).symm
      | succ j => exact hbefore j v (Nat.succ.inj hj) hv

/-- What is no surrogate is no unpaired one. -/
theorem not_isUnpaired_of_getElem? (hu : us[i]? = some u) (hhigh : isHigh u = false)
    (hlow : isLow u = false) : ¬ IsUnpaired us i := by
  rintro (⟨hu', h, -⟩ | ⟨hu', h, -⟩)
  · obtain rfl := Option.some.inj (hu.symm.trans hu')
    rw [hhigh] at h
    cases h
  · obtain rfl := Option.some.inj (hu.symm.trans hu')
    rw [hlow] at h
    cases h

/-- No unit opens and closes a pair. -/
theorem isLow_of_isHigh (h : isHigh u = true) : isLow u = false := by
  rw [isHigh_iff] at h
  rw [Bool.eq_false_iff, ne_eq, isLow_iff]
  omega

/-- Both halves of a pair are paired. -/
theorem not_isUnpaired_pair (hu : isHigh u = true) (hv : isLow v = true) :
    ¬ IsUnpaired (u :: v :: us) 0 ∧ ¬ IsUnpaired (u :: v :: us) 1 := by
  constructor
  · rintro (⟨-, -, hnext⟩ | ⟨hu', h, -⟩)
    · rw [hnext v rfl] at hv
      cases hv
    · obtain rfl := Option.some.inj hu'
      rw [isLow_of_isHigh hu] at h
      cases h
  · rintro (⟨hv', h, -⟩ | ⟨-, -, hbefore⟩)
    · obtain rfl := Option.some.inj hv'
      rw [isLow_of_isHigh h] at hv
      cases hv
    · rw [hbefore 0 u rfl rfl] at hu
      cases hu

/-! ## The units of characters -/

/-- A valid code point is that of its character. -/
theorem toNat_ofNat {n : Nat} (h : n.isValidChar) : (Char.ofNat n).toNat = n := by
  rw [Char.ofNat, dif_pos h]
  rfl

/-- A unit that is no surrogate is that of a character. -/
theorem encodeChar_ofNat (hhigh : isHigh u = false) (hlow : isLow u = false) :
    encodeChar (Char.ofNat u.toNat) = [u] := by
  have hu := u.toNat_lt
  rw [Bool.eq_false_iff, ne_eq, isHigh_iff] at hhigh
  rw [Bool.eq_false_iff, ne_eq, isLow_iff] at hlow
  have hvalid : u.toNat.isValidChar := by
    unfold Nat.isValidChar
    omega
  rw [encodeChar, toNat_ofNat hvalid, if_pos hu, UInt16.ofNat_toNat]

/-- And a pair of surrogates is that of one. -/
theorem encodeChar_ofPair (hu : isHigh u = true) (hv : isLow v = true) :
    encodeChar (ofPair u v) = [u, v] := by
  rw [isHigh_iff] at hu
  rw [isLow_iff] at hv
  have hvalid : (0x10000 + (u.toNat - 0xD800) * 0x400 + (v.toNat - 0xDC00)).isValidChar := by
    unfold Nat.isValidChar
    omega
  have hnat : (ofPair u v).toNat =
      0x10000 + (u.toNat - 0xD800) * 0x400 + (v.toNat - 0xDC00) := toNat_ofNat hvalid
  have hhigh : highUnit (ofPair u v) = u := by
    rw [← UInt16.toNat_inj, toNat_highUnit]
    omega
  have hlow : lowUnit (ofPair u v) = v := by
    rw [← UInt16.toNat_inj, toNat_lowUnit]
    omega
  rw [encodeChar, if_neg (by omega), hhigh, hlow]

/-- **The units of a character** are one that is no surrogate, or a pair of them. -/
theorem encodeChar_cases (c : Char) :
    (∃ u, encodeChar c = [u] ∧ isHigh u = false ∧ isLow u = false) ∨
      ∃ u v, encodeChar c = [u, v] ∧ isHigh u = true ∧ isLow v = true := by
  have hc := toNat_valid c
  unfold encodeChar
  split
  next h =>
    have hu : (UInt16.ofNat c.toNat).toNat = c.toNat := by rw [UInt16.toNat_ofNat']; omega
    refine .inl ⟨_, rfl, ?_, ?_⟩
    · rw [Bool.eq_false_iff, ne_eq, isHigh_iff, hu]
      omega
    · rw [Bool.eq_false_iff, ne_eq, isLow_iff, hu]
      omega
  next => exact .inr ⟨_, _, rfl, isHigh_highUnit c, isLow_lowUnit c⟩

/-- Each character takes a unit at least. -/
theorem length_encodeChar_pos (c : Char) : 0 < (encodeChar c).length := by
  unfold encodeChar
  split <;> exact Nat.succ_pos _

/-- A character in front has no unpaired surrogate, and makes no difference behind it. -/
theorem isUnpaired_encodeChar_append (c : Char) (us : List UInt16) :
    (∀ j < (encodeChar c).length, ¬ IsUnpaired (encodeChar c ++ us) j) ∧
      ∀ i, IsUnpaired (encodeChar c ++ us) ((encodeChar c).length + i) ↔ IsUnpaired us i := by
  obtain ⟨u, hc, hhigh, hlow⟩ | ⟨u, v, hc, hu, hv⟩ := encodeChar_cases c
  · rw [hc]
    refine ⟨fun j hj => ?_, fun i => ?_⟩
    · obtain rfl : j = 0 := Nat.lt_one_iff.1 hj
      exact not_isUnpaired_of_getElem? rfl hhigh hlow
    · rw [List.length_singleton, Nat.add_comm]
      exact isUnpaired_cons_succ fun _ => hhigh
  · rw [hc]
    have hpair : ¬ IsUnpaired (u :: v :: us) 0 ∧ ¬ IsUnpaired (u :: v :: us) 1 :=
      not_isUnpaired_pair hu hv
    -- the second unit of a pair opens none, so what follows the pair is not touched by it
    have hv' : isHigh v = false := by
      rw [Bool.eq_false_iff]
      intro hhigh
      rw [isLow_of_isHigh hhigh] at hv
      cases hv
    refine ⟨fun j hj => ?_, fun i => ?_⟩
    · have hj' : j = 0 ∨ j = 1 := by
        change j < 2 at hj
        omega
      rcases hj' with rfl | rfl
      · exact hpair.1
      · exact hpair.2
    · change IsUnpaired (u :: v :: us) (2 + i) ↔ _
      rw [show 2 + i = i + 1 + 1 by omega,
        isUnpaired_cons_succ fun h => absurd h i.succ_ne_zero, isUnpaired_cons_succ fun _ => hv']

/-- **So with a text in front**: it has none, and makes no difference behind it. -/
theorem isUnpaired_encode_append (cs : List Char) (us : List UInt16) :
    (∀ j < (encode cs).length, ¬ IsUnpaired (encode cs ++ us) j) ∧
      ∀ i, IsUnpaired (encode cs ++ us) ((encode cs).length + i) ↔ IsUnpaired us i := by
  induction cs with
  | nil =>
    refine ⟨nofun, fun i => ?_⟩
    rw [encode, List.flatMap_nil, List.length_nil, Nat.zero_add, List.nil_append]
  | cons c cs ih =>
    obtain ⟨hchar, hbehind⟩ := isUnpaired_encodeChar_append c (encode cs ++ us)
    have hcons : encode (c :: cs) = encodeChar c ++ encode cs := List.flatMap_cons
    rw [hcons, List.append_assoc, List.length_append]
    refine ⟨fun j hj => ?_, fun i => ?_⟩
    · rcases Nat.lt_or_ge j (encodeChar c).length with h | h
      · exact hchar j h
      · obtain ⟨k, rfl⟩ := Nat.exists_eq_add_of_le h
        rw [hbehind]
        exact ih.1 k (by omega)
    · rw [Nat.add_assoc, hbehind, ih.2]

/-! ## Decoding -/

/-- What stands in front: nothing, a character or an unpaired surrogate, at which decoding
ends. -/
theorem front_cases (us : List UInt16) :
    us = [] ∨ (∃ c vs, us = encodeChar c ++ vs) ∨
      IsUnpaired us 0 ∧ ∀ i, decodeFrom i us = .error i := by
  cases us with
  | nil => exact .inl rfl
  | cons u us =>
    -- a unit stands for a character, closes no pair, or opens one that the next unit decides
    cases hhigh : isHigh u with
    | false =>
      cases hlow : isLow u with
      | false => exact .inr (.inl ⟨_, us, by rw [encodeChar_ofNat hhigh hlow]; rfl⟩)
      | true =>
        refine .inr (.inr ⟨.low rfl hlow nofun, fun i => ?_⟩)
        rw [decodeFrom.eq_def]
        simp only [hhigh, hlow, Bool.false_eq_true, if_false, if_true]
    | true =>
      cases us with
      | nil =>
        refine .inr (.inr ⟨.high rfl hhigh nofun, fun i => ?_⟩)
        rw [decodeFrom, if_pos hhigh]
      | cons v vs =>
        cases hlow : isLow v with
        | true => exact .inr (.inl ⟨_, vs, by rw [encodeChar_ofPair hhigh hlow]; rfl⟩)
        | false =>
          refine .inr (.inr ⟨.high rfl hhigh fun w hw => ?_, fun i => ?_⟩)
          · obtain rfl := Option.some.inj hw
            exact hlow
          · rw [decodeFrom]
            simp only [hhigh, hlow, Bool.false_eq_true, if_false, if_true]

/-- **What decoding does.** It takes off characters until the units end, and gives
them; or until an unpaired surrogate is in front, and gives its position. -/
theorem exists_decodeFrom (i : Nat) (us : List UInt16) :
    ∃ cs rest, us = encode cs ++ rest ∧
      ((rest = [] ∧ decodeFrom i us = .ok cs) ∨
        (IsUnpaired rest 0 ∧ decodeFrom i us = .error (i + (encode cs).length))) := by
  obtain rfl | ⟨c, vs, hus⟩ | ⟨hunpaired, herror⟩ := front_cases us
  · exact ⟨[], [], rfl, .inl ⟨rfl, rfl⟩⟩
  · have hlt : vs.length < us.length := by
      have hpos := length_encodeChar_pos c
      rw [hus, List.length_append]
      omega
    -- a character may take two units, so this is on how many are left and not on the list
    obtain ⟨cs, rest, hvs, hdecode⟩ := exists_decodeFrom (i + (encodeChar c).length) vs
    have hcons : encode (c :: cs) = encodeChar c ++ encode cs := List.flatMap_cons
    refine ⟨c :: cs, rest, by rw [hus, hcons, List.append_assoc, ← hvs], ?_⟩
    rw [hus, decodeFrom_encodeChar, hcons, List.length_append]
    obtain ⟨hrest, hok⟩ | ⟨hrest, herror⟩ := hdecode
    · exact .inl ⟨hrest, by rw [hok]; rfl⟩
    · exact .inr ⟨hrest, by rw [herror, Nat.add_assoc]; rfl⟩
  · exact ⟨[], us, rfl, .inr ⟨hunpaired, herror i⟩⟩
termination_by us.length

/-- And so **units decode to the text that they spell, or to the first unpaired surrogate**. -/
theorem decode_cases (us : List UInt16) :
    (∃ cs, encode cs = us ∧ decode us = .ok cs ∧ ∀ i, ¬ IsUnpaired us i) ∨
      ∃ i, decode us = .error i ∧ IsFirstUnpaired us i := by
  obtain ⟨cs, rest, rfl, hdecode⟩ := exists_decodeFrom 0 us
  obtain ⟨hwithin, hbehind⟩ := isUnpaired_encode_append cs rest
  obtain ⟨rfl, hok⟩ | ⟨hrest, herror⟩ := hdecode
  · refine .inl ⟨cs, (List.append_nil _).symm, hok, fun i => ?_⟩
    rcases Nat.lt_or_ge i (encode cs).length with h | h
    · exact hwithin i h
    · obtain ⟨k, rfl⟩ := Nat.exists_eq_add_of_le h
      rw [hbehind]
      rintro (⟨hu, -, -⟩ | ⟨hu, -, -⟩) <;> cases hu
  · refine .inr ⟨(encode cs).length, ?_, (hbehind 0).2 hrest, hwithin⟩
    rw [decode, herror, Nat.zero_add]

/-- Units spell a text if and only if every surrogate has its other half. -/
theorem wellFormed_iff : WellFormed us ↔ ∀ i, ¬ IsUnpaired us i := by
  obtain ⟨cs, hcs, -, hnone⟩ | ⟨i, herror, hi⟩ := decode_cases us
  · exact ⟨fun _ => hnone, fun _ => ⟨cs, hcs⟩⟩
  · refine ⟨fun ⟨cs, hcs⟩ => ?_, fun hnone => absurd hi.unpaired (hnone i)⟩
    rw [← hcs, decode_encode] at herror
    cases herror

end Utf16
end Text

open Text Utf16

/-- The fault of a parse is one of the scan or of the grammar. -/
theorem Expr.stage_of_ofSource {limit : Nat} {source : String} {f : Fault}
    (h : Expr.ofSource limit source = .error f) : f.stage = .lexical ∨ f.stage = .grammar := by
  rw [Expr.ofSource] at h
  cases hs : Stream.ofSource source with
  | error g =>
    rw [hs] at h
    obtain rfl := Except.error.inj h
    exact .inl (Stream.stage_of_ofSource hs)
  | ok s =>
    rw [hs] at h
    exact .inr (exists_token_of_fault hs h).1

namespace Condition

/-- And so text has no fault of encoding. -/
theorem result_ofSource_ne_invalidEncoding (o : Options) (source : String) (i : Nat) :
    (ofSource o source).result ≠ .error (.invalidEncoding i) := by
  rw [ofSource, Logged.result_bind]
  have hresult : (Expr.parse o source).result = Expr.ofSource o.maxDepth source := rfl
  rw [hresult]
  cases hparse : Expr.ofSource o.maxDepth source with
  | ok e => nofun
  | error f =>
    intro h
    obtain rfl := Except.error.inj h
    rcases Expr.stage_of_ofSource hparse with h | h <;> cases h

/-- **Units that are no text are refused at the first unpaired surrogate.** A condition
has a fault of encoding if and only if the units before the first zero are not
well-formed, and it is the position of the first surrogate without its other half. This
is then all that is found, whatever other faults the units have, and nothing is parsed. -/
theorem invalid_encoding_is_first_unpaired (units : List UInt16) :
    (∀ i, (ofUtf16 units).result = .error (.invalidEncoding i) ↔
        ¬ WellFormed (units.takeWhile (· != 0)) ∧
          IsFirstUnpaired (units.takeWhile (· != 0)) i) ∧
      (¬ WellFormed (units.takeWhile (· != 0)) →
        ∃ i, IsFirstUnpaired (units.takeWhile (· != 0)) i ∧
          ofUtf16 units = .fail (.invalidEncoding i)) := by
  obtain ⟨cs, hcs, hok, -⟩ | ⟨i, herror, hi⟩ := decode_cases (units.takeWhile (· != 0))
  · have hwell : WellFormed (units.takeWhile (· != 0)) := ⟨cs, hcs⟩
    refine ⟨fun i => ⟨fun h => ?_, fun h => absurd hwell h.1⟩, fun h => absurd hwell h⟩
    rw [ofUtf16_of_decode hok] at h
    exact absurd h (result_ofSource_ne_invalidEncoding {} _ i)
  · have hill : ¬ WellFormed (units.takeWhile (· != 0)) := fun hwell =>
      wellFormed_iff.1 hwell i hi.unpaired
    have hfail : ofUtf16 units = .fail (.invalidEncoding i) := by rw [ofUtf16, herror]
    refine ⟨fun j => ⟨fun h => ?_, fun h => ?_⟩, fun _ => ⟨i, hi, hfail⟩⟩
    · rw [hfail] at h
      obtain rfl := Fault.invalidEncoding.inj (Except.error.inj h)
      exact ⟨hill, hi⟩
    · rw [hfail, hi.unique h.2]
      rfl

/-- Behind a pair the high surrogate in front of the zero is not paired by what follows
the zero, and is what the units are refused for, though no condition starts with `$`. -/
theorem high_surrogate_before_zero_is_first_unpaired :
    (¬ WellFormed [0x24, 0xD83D, 0xDE00, 0xD800] ∧
        IsFirstUnpaired [0x24, 0xD83D, 0xDE00, 0xD800] 3) ∧
      ∃ i, IsFirstUnpaired [0x24, 0xD83D, 0xDE00, 0xD800] i ∧
        ofUtf16 [0x24, 0xD83D, 0xDE00, 0xD800, 0, 0xDC00] = .fail (.invalidEncoding i) := by
  have hunits := invalid_encoding_is_first_unpaired [0x24, 0xD83D, 0xDE00, 0xD800, 0, 0xDC00]
  have hfirst := (hunits.1 3).1 rfl
  exact ⟨hfirst, hunits.2 hfirst.1⟩

end Condition
end Enablement
