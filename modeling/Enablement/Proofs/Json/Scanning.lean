import Enablement.Json.Reader

/-!
# JSON — cutting a text into pieces

The scanner finds the pieces that a text spells, and spells with them what it
read. There is one lemma for each direction and each part of the grammar. A
number is as long as it can be, so it is found where what follows cannot go on
with it (`Ends`); a blank, a mark and the end of the text cannot.
-/

namespace Enablement
namespace Json

open Text

/-! ## Strings -/

section

variable {a b c d e : Char} {n : Nat} {u : UInt16} {us : List UInt16} {w cs rest : List Char}

end

/-! ## Numbers -/

section

variable {ds f e cs rest : List Char} {n : Nat} {negative found : Bool} {s : Scalar}

/-- Nothing goes on with a number. -/
def Ends (rest : List Char) : Prop :=
  ∀ c ∈ rest.head?, c.isDigit = false ∧ c ≠ '.' ∧ c ≠ 'e' ∧ c ≠ 'E'

/-- A number is written with digits. -/
theorem isDigits_toDigits (n : Nat) : IsDigits (Nat.toDigits 10 n) :=
  ⟨Nat.toDigits_ne_nil,
    fun _ hc => Nat.isDigit_of_mem_toDigits (b := 10) (by decide) (by decide) hc⟩

/-- A digit is that of a number below ten. -/
theorem exists_digitChar_eq {c : Char} (h : c.isDigit = true) :
    ∃ d < 10, d.digitChar = c ∧ c.toNat - '0'.toNat = d := by
  have hzero : 48 ≤ c.toNat := (Char.isDigit_iff_toNat.1 h).1
  have hnine : c.toNat ≤ 57 := (Char.isDigit_iff_toNat.1 h).2
  refine ⟨c.toNat - 48, by omega, Char.toNat_inj.1 ?_, rfl⟩
  rw [Nat.toNat_digitChar_of_lt_ten (by omega)]
  omega

/-- The number with a sign, digits, a fraction and an exponent. -/
def number (negative : Bool) (n : Nat) (f e : List Char) : Scalar :=
  if f ≠ [] ∨ e ≠ [] ∨ negative = true ∧ n = 0 then .real
  else .integer (if negative then -n else n)

/-- The integer with a sign and a number is written so, but minus zero is none. -/
theorem toList_signedDecimal (h : ¬ (negative = true ∧ n = 0)) :
    (signedDecimal (if negative = true then -n else n)).toList =
      sign negative ++ Nat.toDigits 10 n := by
  rw [signedDecimal]
  cases negative with
  | true =>
    have hneg : -(n : Int) < 0 := by
      have hne : n ≠ 0 := fun hzero => h ⟨rfl, hzero⟩
      omega
    simp only [if_true, if_pos hneg, Int.natAbs_neg, Int.natAbs_natCast, String.toList_append,
      decimal, String.toList_ofList]
    rfl
  | false =>
    simp only [Bool.false_eq_true, if_false, if_neg (Int.not_lt.2 (Int.natCast_nonneg n)),
      Int.natAbs_natCast, decimal, String.toList_ofList]
    rfl

/-- And so is every integer. -/
theorem exists_signedDecimal_eq (i : Int) : ∃ negative n, number negative n [] [] = .integer i ∧
    (signedDecimal i).toList = sign negative ++ Nat.toDigits 10 n := by
  obtain ⟨negative, n, hzero, rfl⟩ : ∃ (negative : Bool) (n : Nat),
      ¬ (negative = true ∧ n = 0) ∧ i = if negative = true then -(n : Int) else n := by
    rcases Int.lt_or_le i 0 with hi | hi
    · refine ⟨true, i.natAbs, fun h => ?_, ?_⟩
      · have hzero := h.2
        omega
      · rw [if_pos rfl]
        omega
    · refine ⟨false, i.natAbs, nofun, ?_⟩
      rw [if_neg nofun]
      omega
  refine ⟨negative, n, ?_, toList_signedDecimal hzero⟩
  rw [number, if_neg]
  rintro (h | h | h)
  · exact h rfl
  · exact h rfl
  · exact hzero h

/-- A scalar starts with no blank and no mark. -/
theorem front_of_spelled {w : List Char} (h : s.Spelled w) :
    ∃ c cs, w = c :: cs ∧ isBlank c = false ∧ markOf? c = none := by
  have hdigit (c : Char) (hc : c.isDigit = true) : isBlank c = false ∧ markOf? c = none := by
    obtain ⟨d, hd, rfl, -⟩ := exists_digitChar_eq hc
    have hall : ∀ d < 10, isBlank d.digitChar = false ∧ markOf? d.digitChar = none := by decide
    exact hall d hd
  have hnumber (negative : Bool) (n : Nat) (behind : List Char) : ∃ c cs,
      sign negative ++ (Nat.toDigits 10 n ++ behind) = c :: cs ∧ isBlank c = false ∧
        markOf? c = none := by
    cases negative with
    | true => exact ⟨'-', _, rfl, by decide, by decide⟩
    | false =>
      obtain ⟨c, cs, hcs⟩ := List.exists_cons_of_ne_nil (isDigits_toDigits n).ne_nil
      have hc := hdigit c ((isDigits_toDigits n).isDigit c (hcs ▸ List.mem_cons_self))
      exact ⟨c, cs ++ behind, by rw [hcs]; rfl, hc⟩
  cases h with
  | null | true | false | string => exact ⟨_, _, rfl, by decide, by decide⟩
  | integer i =>
    obtain ⟨negative, n, -, hlist⟩ := exists_signedDecimal_eq i
    have hfront := hnumber negative n []
    rw [List.append_nil, ← hlist] at hfront
    exact hfront
  | real => exact hnumber _ _ _

end

/-! ## Pieces -/

section

variable {c : Char} {w cs rest : List Char} {m : Mark} {p : Piece} {ps : List Piece} {n : Nat}

/-- No two scalars stand side by side. -/
def Apart : List Piece → Prop
  | .scalar _ :: .scalar _ :: _ => False
  | _ :: ps => Apart ps
  | [] => True

/-- What stands apart stands apart behind the first piece. -/
theorem Apart.tail (h : Apart (p :: ps)) : Apart ps := by
  cases p with
  | mark m => exact h
  | scalar s =>
    cases ps with
    | nil => trivial
    | cons q ps =>
      cases q with
      | mark m => exact h
      | scalar s' => exact absurd h id

/-- A piece starts with no blank. -/
theorem front_of_spelled_piece (h : p.Spelled w) : ∃ c cs, w = c :: cs ∧ isBlank c = false := by
  cases h with
  | mark m => exact ⟨_, _, rfl, by cases m <;> rfl⟩
  | scalar hs =>
    obtain ⟨c, cs, hw, hblank, -⟩ := front_of_spelled hs
    exact ⟨c, cs, hw, hblank⟩

/-- A piece is spelled with one character at least. -/
theorem Spells.length_le (h : Spells cs ps) : ps.length ≤ cs.length := by
  induction h with
  | nil => exact Nat.zero_le _
  | cons _ hw _ ih =>
    obtain ⟨c, w, rfl, -⟩ := front_of_spelled_piece hw
    simp only [List.length_append, List.length_cons]
    omega

end

end Json
end Enablement
