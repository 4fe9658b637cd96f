/-!
# UTF-16 — decoding and encoding

A source may come as 16-bit units that end at the first zero. Decoding
gives the characters, or the position of the first surrogate that is not
half of a pair; encoding is the other direction.
-/

namespace Enablement
namespace Text
namespace Utf16

/-- Whether a unit opens a surrogate pair. -/
def isHigh (u : UInt16) : Bool := 0xD800 ≤ u && u < 0xDC00

/-- Whether a unit closes a surrogate pair. -/
def isLow (u : UInt16) : Bool := 0xDC00 ≤ u && u < 0xE000

/-- The character that a surrogate pair stands for. -/
def ofPair (hi lo : UInt16) : Char :=
  Char.ofNat (0x10000 + (hi.toNat - 0xD800) * 0x400 + (lo.toNat - 0xDC00))

/-- The characters of well-formed units, or the position of the first
surrogate outside a pair, where `i` units stand before the ones given. -/
def decodeFrom (i : Nat) : List UInt16 → Except Nat (List Char)
  | [] => .ok []
  | u :: us =>
    if isHigh u then
      match us with
      | [] => .error i
      | v :: vs => if isLow v then (ofPair u v :: ·) <$> decodeFrom (i + 2) vs else .error i
    else if isLow u then .error i
    else (Char.ofNat u.toNat :: ·) <$> decodeFrom (i + 1) us

/-- The characters that the units spell, or the position of the first
surrogate outside a pair. -/
def decode (us : List UInt16) : Except Nat (List Char) := decodeFrom 0 us

/-! ## Encoding -/

/-- The first unit of a character above the first 2¹⁶. -/
def highUnit (c : Char) : UInt16 := UInt16.ofNat (0xD800 + (c.toNat - 0x10000) / 0x400)

/-- The second unit of a character above the first 2¹⁶. -/
def lowUnit (c : Char) : UInt16 := UInt16.ofNat (0xDC00 + (c.toNat - 0x10000) % 0x400)

/-- The one or two units of a character. -/
def encodeChar (c : Char) : List UInt16 :=
  if c.toNat < 0x10000 then [UInt16.ofNat c.toNat] else [highUnit c, lowUnit c]

/-- The units that spell a text. -/
def encode (cs : List Char) : List UInt16 := cs.flatMap encodeChar

/-! ## What is encoded decodes to itself -/

/-- The units that open a pair, by number. -/
theorem isHigh_iff {u : UInt16} : isHigh u = true ↔ 0xD800 ≤ u.toNat ∧ u.toNat < 0xDC00 := by
  simp [isHigh, UInt16.le_iff_toNat_le, UInt16.lt_iff_toNat_lt]

/-- The units that close a pair, by number. -/
theorem isLow_iff {u : UInt16} : isLow u = true ↔ 0xDC00 ≤ u.toNat ∧ u.toNat < 0xE000 := by
  simp [isLow, UInt16.le_iff_toNat_le, UInt16.lt_iff_toNat_lt]

/-- No character is a surrogate. -/
theorem toNat_valid (c : Char) : c.toNat < 0xD800 ∨ 0xDFFF < c.toNat ∧ c.toNat < 0x110000 :=
  c.valid

/-- The first unit of a pair, by number. -/
theorem toNat_highUnit (c : Char) :
    (highUnit c).toNat = 0xD800 + (c.toNat - 0x10000) / 0x400 := by
  have hc := toNat_valid c
  rw [highUnit, UInt16.toNat_ofNat']
  omega

/-- The second unit of a pair, by number. -/
theorem toNat_lowUnit (c : Char) : (lowUnit c).toNat = 0xDC00 + (c.toNat - 0x10000) % 0x400 := by
  rw [lowUnit, UInt16.toNat_ofNat']
  omega

/-- The first unit of a character opens a pair. -/
theorem isHigh_highUnit (c : Char) : isHigh (highUnit c) = true := by
  have hc := toNat_valid c
  rw [isHigh_iff, toNat_highUnit]
  omega

/-- And the second one closes it. -/
theorem isLow_lowUnit (c : Char) : isLow (lowUnit c) = true := by
  rw [isLow_iff, toNat_lowUnit]
  omega

/-- The two units of a character stand for it. -/
theorem ofPair_units {c : Char} (h : 0x10000 ≤ c.toNat) : ofPair (highUnit c) (lowUnit c) = c := by
  rw [ofPair, toNat_highUnit, toNat_lowUnit]
  rw [show 0x10000 + (0xD800 + (c.toNat - 0x10000) / 0x400 - 0xD800) * 0x400 +
    (0xDC00 + (c.toNat - 0x10000) % 0x400 - 0xDC00) = c.toNat by omega, Char.ofNat_toNat]

/-- The units of a character decode to it, whatever follows them. -/
theorem decodeFrom_encodeChar (i : Nat) (c : Char) (us : List UInt16) :
    decodeFrom i (encodeChar c ++ us) =
      (c :: ·) <$> decodeFrom (i + (encodeChar c).length) us := by
  have hc := toNat_valid c
  unfold encodeChar
  split
  next h =>
    have hu : (UInt16.ofNat c.toNat).toNat = c.toNat := by rw [UInt16.toNat_ofNat']; omega
    have h₁ : isHigh (UInt16.ofNat c.toNat) = false := by
      rw [Bool.eq_false_iff, ne_eq, isHigh_iff, hu]; omega
    have h₂ : isLow (UInt16.ofNat c.toNat) = false := by
      rw [Bool.eq_false_iff, ne_eq, isLow_iff, hu]; omega
    rw [List.cons_append, List.nil_append, decodeFrom.eq_def]
    simp only [h₁, h₂, hu, Char.ofNat_toNat, Bool.false_eq_true, if_false]
    rfl
  next h =>
    rw [List.cons_append, List.cons_append, List.nil_append, decodeFrom, isHigh_highUnit]
    simp only [if_true, isLow_lowUnit, ofPair_units (Nat.le_of_not_lt h)]
    rfl

/-- A text is what its units decode to, wherever they start. -/
theorem decodeFrom_encode (i : Nat) (cs : List Char) : decodeFrom i (encode cs) = .ok cs := by
  induction cs generalizing i with
  | nil => rfl
  | cons c cs ih =>
    rw [encode, List.flatMap_cons, decodeFrom_encodeChar, ← encode, ih]
    rfl

/-- **A text is what its units decode to.** -/
theorem decode_encode (cs : List Char) : decode (encode cs) = .ok cs := decodeFrom_encode 0 cs

end Utf16

/-- The characters of a single-byte text, each byte being its own code point. -/
def latin1 (bytes : List UInt8) : List Char := bytes.map fun b => Char.ofNat b.toNat

end Text
end Enablement
