import Enablement.Condition

/-!
# Conditions — one source in three encodings

A source comes as text, as 16-bit units or as single bytes. Units that spell a
text decode to it, and what stands behind the first zero is never seen; and a
byte is the unit of the same number, since none is a surrogate. So a source
makes the same condition however it comes, with the same fault in the same
place if it makes none (`Condition.encodings_agree`).
-/

namespace Enablement

/-! ## What stands before a zero -/

namespace Text

namespace Utf16

variable {cs : List Char} {us : List UInt16}

/-- Only the character zero has a unit that is zero. -/
theorem zero_mem_encodeChar_iff {c : Char} : 0 ∈ encodeChar c ↔ c = '\x00' := by
  have hc := toNat_valid c
  have hzero : c = '\x00' ↔ c.toNat = 0 := Char.toNat_inj.symm
  rw [hzero, encodeChar]
  split
  next h =>
    rw [List.mem_singleton, ← UInt16.toNat_inj, UInt16.toNat_ofNat']
    simp only [UInt16.toNat_zero]
    omega
  next h =>
    rw [List.mem_cons, List.mem_singleton, ← UInt16.toNat_inj, ← UInt16.toNat_inj,
      toNat_highUnit, toNat_lowUnit]
    simp only [UInt16.toNat_zero]
    omega

/-- The units of a text have a zero just if the text has a NUL. -/
theorem zero_mem_encode_iff : 0 ∈ encode cs ↔ '\x00' ∈ cs := by
  simp [encode, List.mem_flatMap, zero_mem_encodeChar_iff]

/-- **Of units without a zero all are read**, and nothing behind a zero that follows them. -/
theorem takeWhile_ne_zero (h : 0 ∉ us) (tail : List UInt16) :
    us.takeWhile (· != 0) = us ∧ (us ++ 0 :: tail).takeWhile (· != 0) = us := by
  have hall : ∀ u ∈ us, (u != 0) = true := fun u hu => bne_iff_ne.2 fun hzero => h (hzero ▸ hu)
  have htake : ∀ vs, (us ++ vs).takeWhile (· != 0) = us ++ vs.takeWhile (· != 0) := fun vs =>
    List.takeWhile_append_of_pos hall
  constructor
  · simpa using htake []
  · rw [htake]
    simp

/-! ## Bytes as units -/

/-- **Bytes as units decode to the characters of the bytes.** -/
theorem decodeFrom_bytes (i : Nat) (bytes : List UInt8) :
    decodeFrom i (bytes.map UInt8.toUInt16) = .ok (latin1 bytes) := by
  induction bytes generalizing i with
  | nil => rfl
  | cons b bytes ih =>
    have hb := b.toNat_lt
    have hhigh : isHigh b.toUInt16 = false := by
      rw [Bool.eq_false_iff, ne_eq, isHigh_iff, UInt8.toNat_toUInt16]
      omega
    have hlow : isLow b.toUInt16 = false := by
      rw [Bool.eq_false_iff, ne_eq, isLow_iff, UInt8.toNat_toUInt16]
      omega
    rw [List.map_cons, decodeFrom.eq_def]
    simp only [hhigh, hlow, Bool.false_eq_true, if_false, ih, UInt8.toNat_toUInt16]
    rfl

end Utf16

/-- The units before the first zero are those of the bytes before it. -/
theorem Utf16.takeWhile_bytes (bytes : List UInt8) :
    (bytes.map UInt8.toUInt16).takeWhile (· != 0) =
      (bytes.takeWhile (· != 0)).map UInt8.toUInt16 := by
  have hzero : (· != 0) ∘ UInt8.toUInt16 = (· != 0) := by
    funext b
    rw [Function.comp_apply, Bool.eq_iff_iff, bne_iff_ne, bne_iff_ne, ne_eq, ne_eq,
      ← UInt16.toNat_inj, ← UInt8.toNat_inj]
    rfl
  rw [List.takeWhile_map, hzero]

end Text

namespace Condition

open Text

variable {units : List UInt16} {source : String} {tail : List UInt16}

/-- Units that decode make the condition of the text that they spell. -/
theorem ofUtf16_of_decode {cs : List Char}
    (h : Utf16.decode (units.takeWhile (· != 0)) = .ok cs) :
    ofUtf16 units = ofSource {} (String.ofList cs) := by
  rw [ofUtf16, h]

/-- **A text without a zero is read from its units**, wherever they end. -/
theorem ofUtf16_encode (h : '\x00' ∉ source.toList) :
    ofUtf16 (Utf16.encode source.toList ++ 0 :: tail) = ofSource {} source ∧
      ofUtf16 (Utf16.encode source.toList) = ofSource {} source := by
  have hzero : 0 ∉ Utf16.encode source.toList := mt Utf16.zero_mem_encode_iff.1 h
  obtain ⟨hall, hfront⟩ := Utf16.takeWhile_ne_zero hzero tail
  have hdecode : Utf16.decode (Utf16.encode source.toList) = .ok source.toList :=
    Utf16.decode_encode source.toList
  constructor
  · rw [ofUtf16_of_decode (hfront.symm ▸ hdecode), String.ofList_toList]
  · rw [ofUtf16_of_decode (hall.symm ▸ hdecode), String.ofList_toList]

/-- **Bytes are read as the units of the same numbers.** -/
theorem ofUtf16_bytes (bytes : List UInt8) :
    ofUtf16 (bytes.map UInt8.toUInt16) = ofBytes bytes := by
  refine ofUtf16_of_decode ?_
  rw [Utf16.takeWhile_bytes]
  exact Utf16.decodeFrom_bytes 0 _

/-- **A source makes one condition in all encodings.** Of a text without a zero the
units make what the text makes, and so they do with a zero behind them and anything
behind that. Bytes make what units of the same numbers make, which is what the text
makes whose characters are the bytes before the first zero. What is made is the
source with its expression, or the first fault and where it lies. -/
theorem encodings_agree :
    (∀ (source : String) (tail : List UInt16), '\x00' ∉ source.toList →
        ofUtf16 (Utf16.encode source.toList ++ 0 :: tail) = ofSource {} source ∧
          ofUtf16 (Utf16.encode source.toList) = ofSource {} source) ∧
      ∀ bytes : List UInt8,
        ofBytes bytes = ofUtf16 (bytes.map UInt8.toUInt16) ∧
          ofUtf16 (bytes.map UInt8.toUInt16) =
            ofSource {} (String.ofList (latin1 (bytes.takeWhile (· != 0)))) := by
  refine ⟨fun source tail h => ofUtf16_encode h, fun bytes => ?_⟩
  have hunits : ofUtf16 (bytes.map UInt8.toUInt16) = ofBytes bytes := ofUtf16_bytes bytes
  exact ⟨hunits.symm, hunits⟩

/-- A character of two units counts as one: behind it a fault lies in the same place
in the units as in the text, and the half of a pair behind the zero is no fault. -/
theorem encodings_of_emoji_agree :
    (ofUtf16 [0x22, 0xD83D, 0xDE00, 0x22, 0x20, 0x3D, 0x3D, 0x20, 0x24, 0, 0xD800]).result =
      .error (.unexpectedCharacter '$' 7) := by
  have h := (encodings_agree.1 "\"😀\" == $" [0xD800] (by decide)).1
  have hunits : Utf16.encode "\"😀\" == $".toList ++ 0 :: [0xD800] =
      [0x22, 0xD83D, 0xDE00, 0x22, 0x20, 0x3D, 0x3D, 0x20, 0x24, 0, 0xD800] := by decide
  rw [← hunits, h]
  rfl

end Condition
end Enablement
