import Enablement.Text.UppercaseTable

/-!
# Upper-casing — text compared without case

Two texts are the same when their characters have the same upper-case
forms, each taken in full: `ß` is the same as `SS`, and `ﬁ` as `FI`. The
comparison looks at one character at a time and does not normalise, so a
letter with a combining accent differs from the accented letter.
-/

namespace Enablement
namespace Text

/-- The upper-case form of the character with code point `n` outside ASCII. -/
def upperBeyondAscii (n : Nat) : List Char :=
  match caseExpansions.lookup n with
  | some ns => ns.map Char.ofNat
  | none =>
    match caseRuns.find? (·.contains n) with
    | some r => [Char.ofNat (n + r.shift).toNat]
    | none => [Char.ofNat n]

/-- The full upper-case form of a character. -/
def upper (c : Char) : List Char :=
  if c.toNat < 0x80 then [c.toUpper] else upperBeyondAscii c.toNat

/-- The full upper-case form of a text. -/
def upperText (s : String) : List Char := s.toList.flatMap upper

/-- Whether two texts have the same upper-case form. -/
def sameText (a b : String) : Bool := upperText a == upperText b

/-- Two texts are the same just if their upper-case forms are. -/
@[simp] theorem sameText_iff {a b : String} : sameText a b = true ↔ upperText a = upperText b := by
  simp [sameText]

/-- In ASCII a character has one upper-case character. -/
theorem upper_of_ascii {c : Char} (h : c.toNat < 0x80) : upper c = [c.toUpper] := if_pos h

end Text
end Enablement
