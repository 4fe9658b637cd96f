import Enablement.Json
import Enablement.Text.Decimal

/-!
# JSON — what a text spells

The grammar of JSON, told apart from how a text is read or written. A tree is written as a
list of pieces in one way only (`Tree.pieces`). A text spells pieces if it has
them in order with any blanks before, between and behind them (`Spells`). What
is left to choose is then how each scalar is spelled: the characters of a string
as themselves or by escapes, and a number that is no integer by its digits, its
fraction and its exponent.
-/

namespace Enablement
namespace Json

open Text (Utf16.encodeChar)

/-- The marks of punctuation. -/
inductive Mark
  | openBrace | closeBrace | openBracket | closeBracket | colon | comma
deriving DecidableEq, Repr

/-- A piece of a text. -/
inductive Piece
  | mark (m : Mark)
  | scalar (s : Scalar)
deriving DecidableEq, Repr

/-- Whether a character only separates pieces. -/
def isBlank (c : Char) : Bool := c == ' ' || c == '\t' || c == '\n' || c == '\r'

/-! ## Strings -/

/-- The escapes of one letter and the characters that they stand for. -/
def escapes : List (Char × Char) :=
  [('"', '"'), ('\\', '\\'), ('/', '/'), ('b', '\x08'), ('f', '\x0c'), ('n', '\n'), ('r', '\r'),
    ('t', '\t')]

/-- The character is the hexadecimal digit of a number below 16, in either case of
letters. -/
def IsHex (c : Char) (n : Nat) : Prop := n < 16 ∧ (c = n.digitChar ∨ c = n.digitChar.toUpper)

/-- The characters between quotes spell units of UTF-16. -/
inductive Quoted : List Char → List UInt16 → Prop
  | nil : Quoted [] []
  /-- A character as itself. -/
  | plain {c : Char} {w : List Char} {us : List UInt16} :
    ' ' ≤ c → c ≠ '"' → c ≠ '\\' → Quoted w us → Quoted (c :: w) (Utf16.encodeChar c ++ us)
  /-- An escape of one letter. -/
  | escape {e c : Char} {w : List Char} {us : List UInt16} :
    (e, c) ∈ escapes → Quoted w us → Quoted ('\\' :: e :: w) (Utf16.encodeChar c ++ us)
  /-- A unit by its four hexadecimal digits. -/
  | unit {a b c d : Char} {u : UInt16} {w : List Char} {us : List UInt16} :
    IsHex a (u.toNat / 4096) → IsHex b (u.toNat / 256 % 16) → IsHex c (u.toNat / 16 % 16) →
      IsHex d (u.toNat % 16) → Quoted w us → Quoted ('\\' :: 'u' :: a :: b :: c :: d :: w) (u :: us)

/-! ## Numbers -/

/-- One decimal digit or more. -/
structure IsDigits (ds : List Char) : Prop where
  /-- There is one. -/
  ne_nil : ds ≠ []
  /-- All are digits. -/
  isDigit : ∀ c ∈ ds, c.isDigit = true

/-- The fraction of a number, or none. -/
inductive IsFraction : List Char → Prop
  | none : IsFraction []
  | some {ds : List Char} : IsDigits ds → IsFraction ('.' :: ds)

/-- The exponent of a number, or none. -/
inductive IsExponent : List Char → Prop
  | none : IsExponent []
  | some {e : Char} {sign ds : List Char} : e = 'e' ∨ e = 'E' →
    sign = [] ∨ sign = ['+'] ∨ sign = ['-'] → IsDigits ds → IsExponent (e :: (sign ++ ds))

/-- The sign of a number. -/
def sign (negative : Bool) : List Char := if negative then ['-'] else []

/-! ## Pieces -/

/-- The characters spell a scalar. -/
inductive Scalar.Spelled : List Char → Scalar → Prop
  | null : Spelled ['n', 'u', 'l', 'l'] .null
  | true : Spelled ['t', 'r', 'u', 'e'] (.boolean true)
  | false : Spelled ['f', 'a', 'l', 's', 'e'] (.boolean false)
  /-- An integer by its digits. -/
  | integer (i : Int) : Spelled (Text.signedDecimal i).toList (.integer i)
  /-- A number with a fraction or an exponent, or minus zero. -/
  | real {negative : Bool} {n : Nat} {fraction exponent : List Char} :
    IsFraction fraction → IsExponent exponent →
      fraction ≠ [] ∨ exponent ≠ [] ∨ negative = Bool.true ∧ n = 0 →
      Spelled (sign negative ++ (Nat.toDigits 10 n ++ (fraction ++ exponent))) .real
  /-- A string between quotes. -/
  | string {w : List Char} {us : List UInt16} :
    Quoted w us → Spelled ('"' :: (w ++ ['"'])) (.string us)

/-- The character of a mark. -/
def Mark.char : Mark → Char
  | .openBrace => '\x7b'
  | .closeBrace => '\x7d'
  | .openBracket => '['
  | .closeBracket => ']'
  | .colon => ':'
  | .comma => ','

/-- The characters spell a piece. -/
inductive Piece.Spelled : List Char → Piece → Prop
  | mark (m : Mark) : Spelled [m.char] (.mark m)
  | scalar {w : List Char} {s : Scalar} : s.Spelled w → Spelled w (.scalar s)

/-- **The characters spell the pieces**, one behind the other and with blanks around
them. -/
inductive Spells : List Char → List Piece → Prop
  /-- Nothing but blanks. -/
  | nil {blanks : List Char} : (∀ c ∈ blanks, isBlank c = true) → Spells blanks []
  /-- One piece more in front. -/
  | cons {blanks w rest : List Char} {p : Piece} {ps : List Piece} :
    (∀ c ∈ blanks, isBlank c = true) → p.Spelled w → Spells rest ps →
      Spells (blanks ++ (w ++ rest)) (p :: ps)

/-! ## Trees -/

mutual

/-- The pieces that a tree is written with. -/
def Tree.pieces : Tree → List Piece
  | .scalar s => [.scalar s]
  | .array [] => [.mark .openBracket, .mark .closeBracket]
  | .array (t :: ts) => .mark .openBracket :: (t.pieces ++ moreItems ts)
  | .object [] => [.mark .openBrace, .mark .closeBrace]
  | .object ((key, t) :: ms) =>
    .mark .openBrace :: .scalar (.string key) :: .mark .colon :: (t.pieces ++ moreMembers ms)

/-- The items of an array after the first, through the closing bracket. -/
def moreItems : List Tree → List Piece
  | [] => [.mark .closeBracket]
  | t :: ts => .mark .comma :: (t.pieces ++ moreItems ts)

/-- The members of an object after the first, through the closing brace. -/
def moreMembers : List (List UInt16 × Tree) → List Piece
  | [] => [.mark .closeBrace]
  | (key, t) :: ms =>
    .mark .comma :: .scalar (.string key) :: .mark .colon :: (t.pieces ++ moreMembers ms)

end

end Json
end Enablement
