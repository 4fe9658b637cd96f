import Enablement.Json.Grammar

/-!
# JSON — reading a text

A text is first cut into tokens, marks and scalars with blanks between them,
and the tokens are then put together to one value. Two scalars side by side
are no value whatever they are, so it does no harm that the first step would
cut `truefalse` or `1"a"` in two.

This is one reader by the grammar, for the program to run with. What is read
and stored elsewhere is stated for any reader that keeps to the grammar.
-/

namespace Enablement
namespace Json

/-! ## Pieces -/

/-- The mark that a character is. -/
def markOf? (c : Char) : Option Mark :=
  if c = '\x7b' then some .openBrace
  else if c = '\x7d' then some .closeBrace
  else if c = '[' then some .openBracket
  else if c = ']' then some .closeBracket
  else if c = ':' then some .colon
  else if c = ',' then some .comma
  else none

/-- The number that a hexadecimal digit stands for. -/
def hexValue? (c : Char) : Option Nat :=
  if c.isDigit then some (c.toNat - '0'.toNat)
  else if 'a' ≤ c ∧ c ≤ 'f' then some (c.toNat - 'a'.toNat + 10)
  else if 'A' ≤ c ∧ c ≤ 'F' then some (c.toNat - 'A'.toNat + 10)
  else none

/-- The unit that four hexadecimal digits stand for. -/
def unitOfHex? (a b c d : Char) : Option UInt16 := do
  let a ← hexValue? a
  let b ← hexValue? b
  let c ← hexValue? c
  let d ← hexValue? d
  return UInt16.ofNat (((a * 16 + b) * 16 + c) * 16 + d)

/-- The character that an escape of one letter stands for. -/
def escaped? (c : Char) : Option Char :=
  if c = '"' ∨ c = '\\' ∨ c = '/' then some c
  else if c = 'b' then some '\x08'
  else if c = 'f' then some '\x0c'
  else if c = 'n' then some '\n'
  else if c = 'r' then some '\r'
  else if c = 't' then some '\t'
  else none

/-- The units of a string and what follows its closing quote. -/
def stringBody? : List Char → Option (List UInt16 × List Char)
  | [] => none
  | '"' :: cs => some ([], cs)
  | '\\' :: 'u' :: a :: b :: c :: d :: cs => do
    let u ← unitOfHex? a b c d
    let (us, cs) ← stringBody? cs
    return (u :: us, cs)
  | '\\' :: e :: cs => do
    let c ← escaped? e
    let (us, cs) ← stringBody? cs
    return (Text.Utf16.encodeChar c ++ us, cs)
  | c :: cs =>
    if c < ' ' ∨ c = '\\' then none
    else do
      let (us, cs) ← stringBody? cs
      return (Text.Utf16.encodeChar c ++ us, cs)

/-- The digits that the characters start with, of which there must be one,
and what follows them. -/
def digits? (cs : List Char) : Option (List Char × List Char) :=
  let ds := cs.takeWhile Char.isDigit
  if ds.isEmpty then none else some (ds, cs.dropWhile Char.isDigit)

/-- What follows the fraction that the characters may start with, and whether
there is one. -/
def fraction? : List Char → Option (Bool × List Char)
  | '.' :: cs => (digits? cs).map fun r => (true, r.2)
  | cs => some (false, cs)

/-- What follows the exponent that the characters may start with, and whether
there is one. -/
def exponent? : List Char → Option (Bool × List Char)
  | e :: cs =>
    if e = 'e' ∨ e = 'E' then
      match cs with
      | '+' :: cs | '-' :: cs => (digits? cs).map fun r => (true, r.2)
      | cs => (digits? cs).map fun r => (true, r.2)
    else some (false, e :: cs)
  | [] => some (false, [])

/-- The number without a sign that the characters start with. A zero in front
of other digits is no number. -/
def unsigned? (negative : Bool) (cs : List Char) : Option (Scalar × List Char) := do
  let (ds, cs) ← digits? cs
  if ds.head? = some '0' ∧ ds ≠ ['0'] then none
  else
    let (hasFraction, cs) ← fraction? cs
    let (hasExponent, cs) ← exponent? cs
    let n := Nat.ofDigitChars 10 ds 0
    if hasFraction ∨ hasExponent ∨ (negative ∧ n = 0) then return (.real, cs)
    else return (.integer (if negative then -n else n), cs)

/-- The scalar that the characters start with, and what follows it. -/
def scalar? : List Char → Option (Scalar × List Char)
  | '"' :: cs => (stringBody? cs).map fun r => (.string r.1, r.2)
  | 'n' :: 'u' :: 'l' :: 'l' :: cs => some (.null, cs)
  | 't' :: 'r' :: 'u' :: 'e' :: cs => some (.boolean true, cs)
  | 'f' :: 'a' :: 'l' :: 's' :: 'e' :: cs => some (.boolean false, cs)
  | '-' :: cs => unsigned? true cs
  | cs => unsigned? false cs

/-- The first piece and what follows it. -/
def piece? : List Char → Option (Piece × List Char)
  | [] => none
  | c :: cs =>
    match markOf? c with
    | some m => some (.mark m, cs)
    | none => (scalar? (c :: cs)).map fun r => (.scalar r.1, r.2)

/-- The pieces of a text of at most `n` pieces. -/
def piecesUpTo? : Nat → List Char → Option (List Piece)
  | n, cs =>
    match cs.dropWhile isBlank with
    | [] => some []
    | c :: cs =>
      match n with
      | 0 => none
      | n + 1 => do
        let (p, cs) ← piece? (c :: cs)
        let ps ← piecesUpTo? n cs
        return p :: ps

/-- The pieces of a text; there are no more than it has characters. -/
def pieces? (cs : List Char) : Option (List Piece) := piecesUpTo? cs.length cs

/-! ## Trees -/

mutual

/-- The value that the pieces start with and what follows it, where a value
may be put together in `n` steps. -/
def tree? : Nat → List Piece → Option (Tree × List Piece)
  | 0, _ => none
  | _ + 1, .scalar s :: ps => some (.scalar s, ps)
  | _ + 1, .mark .openBracket :: .mark .closeBracket :: ps => some (.array [], ps)
  | n + 1, .mark .openBracket :: ps => do
    let (ts, ps) ← items? n ps
    return (.array ts, ps)
  | _ + 1, .mark .openBrace :: .mark .closeBrace :: ps => some (.object [], ps)
  | n + 1, .mark .openBrace :: ps => do
    let (ms, ps) ← members? n ps
    return (.object ms, ps)
  | _ + 1, _ => none

/-- The items of an array, through its closing bracket. -/
def items? : Nat → List Piece → Option (List Tree × List Piece)
  | 0, _ => none
  | n + 1, ps => do
    let (t, ps) ← tree? n ps
    match ps with
    | .mark .comma :: ps => do
      let (ts, ps) ← items? n ps
      return (t :: ts, ps)
    | .mark .closeBracket :: ps => return ([t], ps)
    | _ => none

/-- The members of an object, through its closing brace. -/
def members? : Nat → List Piece → Option (List (List UInt16 × Tree) × List Piece)
  | 0, _ => none
  | n + 1, .scalar (.string key) :: .mark .colon :: ps => do
    let (t, ps) ← tree? n ps
    match ps with
    | .mark .comma :: ps => do
      let (ms, ps) ← members? n ps
      return ((key, t) :: ms, ps)
    | .mark .closeBrace :: ps => return ([(key, t)], ps)
    | _ => none
  | _ + 1, _ => none

end

/-- The value that all pieces together make. Each step takes a piece or is
followed by one that does. -/
def ofPieces? (ps : List Piece) : Option Tree :=
  match tree? (2 * ps.length + 1) ps with
  | some (t, []) => some t
  | _ => none

/-- **The value that a text stands for**, if it is well written. -/
def read? (s : String) : Option Tree := (pieces? s.toList).bind ofPieces?

end Json
end Enablement
