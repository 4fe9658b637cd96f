/-!
# Names — ASCII case

The names of variables, of colour modes and of built-in functions, and the
two boolean words, are compared without regard to the case of the letters
`a` to `z`. No other character has a case here: `ſ` and the Kelvin sign are
different from `s` and `k` in a name.
-/

namespace Enablement
namespace Text

/-- The characters of a name with the letters `A` to `Z` made small. -/
def foldName (s : String) : List Char := s.toList.map Char.toLower

/-- Whether two names are the same apart from the case of ASCII letters. -/
def sameName (a b : String) : Bool := foldName a == foldName b

/-- Two names are the same just if they fold to the same text. -/
@[simp] theorem sameName_iff {a b : String} : sameName a b = true ↔ foldName a = foldName b := by
  simp [sameName]

end Text
end Enablement
