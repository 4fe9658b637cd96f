import Enablement.Text.Decimal

/-!
# Decimal — reading what was written

The digits of a number spell it, and so does the text of a 32-bit integer
that is not negative. Digits alone, without a sign, spell nothing else.
-/

namespace Enablement
namespace Text

variable {n : Nat} {i : Int} {text : String}

/-- The text of a number has only digits. -/
theorem isDigit_of_mem_decimal : ∀ c ∈ (decimal n).toList, c.isDigit = true := by
  intro c hc
  rw [decimal, String.toList_ofList] at hc
  exact Nat.isDigit_of_mem_toDigits (by decide) (by decide) hc

/-- And one digit at least. -/
theorem toList_decimal_ne_nil : (decimal n).toList ≠ [] := by
  rw [decimal, String.toList_ofList]
  exact Nat.toDigits_ne_nil

/-- **The digits of a number spell it.** -/
theorem natOfDigits?_decimal : natOfDigits? (decimal n).toList = some n := by
  have hall : (decimal n).toList.all Char.isDigit = true :=
    List.all_eq_true.2 isDigit_of_mem_decimal
  have hne : (decimal n).toList.isEmpty = false := by
    rw [← Bool.not_eq_true, List.isEmpty_iff]
    exact toList_decimal_ne_nil
  rw [natOfDigits?, hall, hne, decimal, String.toList_ofList, Nat.ofDigitChars_ten_toDigits]
  rfl

/-- A text of digits has no sign to take off. -/
theorem int32OfText?_of_isDigit (h : ∀ c ∈ text.toList, c.isDigit = true) :
    int32OfText? text = (natOfDigits? text.toList).bind fun n => int32OfInt? n := by
  unfold int32OfText?
  split
  next ds hds => exact absurd (h '-' (by rw [hds]; exact List.mem_cons_self)) (by decide)
  next ds hds => exact absurd (h '+' (by rw [hds]; exact List.mem_cons_self)) (by decide)
  next => rfl

/-- The word of an integer that fits has this integer. -/
theorem toInt_of_int32OfInt? {m : Int32} (h : int32OfInt? i = some m) : m.toInt = i := by
  unfold int32OfInt? at h
  split at h
  next hi =>
    obtain rfl := Option.some.inj h
    exact Int32.toInt_ofInt_of_le (by omega) (by omega)
  next => cases h

/-- And the word of that integer is the word itself. -/
theorem int32OfInt?_toInt (m : Int32) : int32OfInt? m.toInt = some m := by
  have hlow := m.le_toInt
  have hhigh := m.toInt_lt
  rw [int32OfInt?, if_pos (by omega), Int32.ofInt_toInt]

/-- Digits alone spell no negative number. -/
theorem toInt_nonneg_of_isDigit {m : Int32} (h : ∀ c ∈ text.toList, c.isDigit = true)
    (hm : int32OfText? text = some m) : 0 ≤ m.toInt := by
  rw [int32OfText?_of_isDigit h] at hm
  obtain ⟨k, -, hk⟩ := Option.bind_eq_some_iff.1 hm
  rw [toInt_of_int32OfInt? hk]
  exact Int.natCast_nonneg k

/-- **A number that fits into 32 bits is read as it was written.** -/
theorem int32OfText?_decimal {m : Int32} (h : m.toInt = n) : int32OfText? (decimal n) = some m := by
  rw [int32OfText?_of_isDigit isDigit_of_mem_decimal, natOfDigits?_decimal, Option.bind_some,
    ← h, int32OfInt?_toInt]

end Text
end Enablement
