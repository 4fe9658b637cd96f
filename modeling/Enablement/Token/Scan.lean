import Enablement.Fault
import Enablement.Text.AsciiCase

/-!
# Tokens — reading them from a source

A cursor stands in a source and gives one token at a time. Each step takes
the longest lexeme that starts where the cursor stands after blanks; what
starts no lexeme is a fault, and the cursor goes on behind the characters
that were at fault. At the end it stays, and gives the end of input again
and again. `Stream.ofSource` takes the steps of a whole source up to its end
or its first fault.
-/

namespace Enablement

/-! ## Characters -/

/-- Whether a character only separates lexemes. -/
def isBlank (c : Char) : Bool :=
  c == ' ' || c == '\t' || c == '\n' || c == '\x0c' || c == '\r'

/-- Whether a character can start a word. -/
def isWordStart (c : Char) : Bool := c.isAlpha || c == '_'

/-- Whether a character can go on in a word. -/
def isWordPart (c : Char) : Bool := c.isAlphanum || c == '_'

/-! ## One lexeme -/

/-- What a step of a scanner did. -/
structure Scan where
  /-- The lexeme, or what is wrong. -/
  outcome : Except Fault Lexeme
  /-- The characters it took. -/
  taken : List Char
  /-- The characters after them. -/
  rest : List Char

/-- The longest symbol that the characters start with. -/
def Symbol.scan? (cs : List Char) : Option Symbol := Symbol.all.find? (·.chars.isPrefixOf cs)

/-- A symbol that is found stands at the front. -/
theorem Symbol.chars_prefix_of_scan? {cs : List Char} {s : Symbol} (h : Symbol.scan? cs = some s) :
    s.chars <+: cs :=
  List.isPrefixOf_iff_prefix.1 (by simpa using List.find?_some h)

/-- The lexeme of a word: one of the two truth values, or a name. -/
def Lexeme.ofWord (word : String) : Lexeme :=
  if Text.sameName word "true" || Text.sameName word "false" then .boolean word
  else .identifier word

namespace Scan

/-- Reads a string literal, where `cs` follows the opening quote. Between the
quotes every character stands for itself. -/
def string (p : Nat) (cs : List Char) : Scan :=
  let text := cs.takeWhile (· != '"')
  match cs.dropWhile (· != '"') with
  | [] => ⟨.error (.unterminatedString p), '"' :: text, []⟩
  | q :: rest => ⟨.ok (.string (String.ofList text)), '"' :: text ++ [q], rest⟩

/-- Reads the digits that `cs` starts with. -/
def integer (p : Nat) (cs : List Char) : Scan :=
  let digits := cs.takeWhile Char.isDigit
  let text := String.ofList digits
  let outcome :=
    if (Text.int32OfText? text).isSome then .ok (.integer text)
    else .error (.integerOverflow text p)
  ⟨outcome, digits, cs.dropWhile Char.isDigit⟩

/-- Reads the word that `cs` starts with. -/
def word (cs : List Char) : Scan :=
  let text := cs.takeWhile isWordPart
  ⟨.ok (.ofWord (String.ofList text)), text, cs.dropWhile isWordPart⟩

/-- Reads a symbol; a character that starts none is taken alone. -/
def symbol (p : Nat) (c : Char) (cs : List Char) : Scan :=
  match Symbol.scan? (c :: cs) with
  | some s => ⟨.ok (.symbol s), s.chars, (c :: cs).drop s.chars.length⟩
  | none => ⟨.error (.unexpectedCharacter c p), [c], cs⟩

/-- Reads the lexeme that starts with `c`, at offset `p` and followed by `cs`. -/
def lexeme (p : Nat) (c : Char) (cs : List Char) : Scan :=
  if c = '"' then string p cs
  else if c.isDigit then integer p (c :: cs)
  else if isWordStart c then word (c :: cs)
  else symbol p c cs

/-- A string takes a front part of the characters and leaves the rest, closed or not. -/
theorem string_append (p : Nat) (cs : List Char) :
    (string p cs).taken ++ (string p cs).rest = '"' :: cs := by
  have h := List.takeWhile_append_dropWhile (p := (· != '"')) (l := cs)
  unfold string
  split
  next e => rw [e] at h; simpa using h
  next e => rw [e] at h; simpa using h

/-- And so does a symbol, found or not. -/
theorem symbol_append (p : Nat) (c : Char) (cs : List Char) :
    (symbol p c cs).taken ++ (symbol p c cs).rest = c :: cs := by
  unfold symbol
  split
  next h => exact List.prefix_iff_eq_append.1 (Symbol.chars_prefix_of_scan? h)
  next => rfl

/-- **A step splits the source**: nothing is lost, and nothing is read twice. -/
theorem lexeme_append (p : Nat) (c : Char) (cs : List Char) :
    (lexeme p c cs).taken ++ (lexeme p c cs).rest = c :: cs := by
  unfold lexeme
  split
  next h => rw [h, string_append]
  split
  · exact List.takeWhile_append_dropWhile
  split
  · exact List.takeWhile_append_dropWhile
  · exact symbol_append p c cs

/-- Each step takes something, also one that ends in a fault. -/
theorem taken_lexeme_ne_nil (p : Nat) (c : Char) (cs : List Char) :
    (lexeme p c cs).taken ≠ [] := by
  unfold lexeme
  split
  · unfold string; split <;> simp
  split
  next h => simp [integer, h]
  split
  next h =>
    have : isWordPart c = true := by
      simp only [isWordStart, isWordPart, Char.isAlphanum, Bool.or_eq_true] at h ⊢
      rcases h with h | h <;> simp [h]
    simp [word, this]
  · unfold symbol
    split
    next s _ => cases s <;> simp [Symbol.chars]
    next => simp

end Scan

/-! ## Walking through a source -/

/-- A place in a source. -/
structure Cursor where
  /-- The characters not yet read. -/
  rest : List Char
  /-- The number of characters read. -/
  offset : Nat
deriving DecidableEq, Repr

namespace Cursor

/-- The start of a source. -/
def start (source : String) : Cursor := ⟨source.toList, 0⟩

/-- The cursor after blanks. -/
def skipBlanks (k : Cursor) : Cursor :=
  ⟨k.rest.dropWhile isBlank, k.offset + (k.rest.takeWhile isBlank).length⟩

/-- **One step**: the next token or a fault, and where the cursor stands then. -/
def next (k : Cursor) : Except Fault Token × Cursor :=
  let k := k.skipBlanks
  match k.rest with
  | [] => (.ok ⟨none, k.offset⟩, k)
  | c :: cs =>
    let s := Scan.lexeme k.offset c cs
    (s.outcome.map fun l => ⟨some l, k.offset⟩, ⟨s.rest, k.offset + s.taken.length⟩)

/-- The outcomes of `n` steps in a row, faults included. -/
def steps : Nat → Cursor → List (Except Fault Token)
  | 0, _ => []
  | n + 1, k => k.next.1 :: steps n k.next.2

/-- The stream of at most `n` steps, after the lexemes in `read`, the last
of them first. -/
def collect : Nat → List (Located Lexeme) → Cursor → Except Fault Stream
  | 0, read, k => .ok ⟨read.reverse, k.offset⟩
  | n + 1, read, k =>
    match k.next with
    | (.error f, _) => .error f
    | (.ok ⟨none, p⟩, _) => .ok ⟨read.reverse, p⟩
    | (.ok ⟨some l, p⟩, k) => collect n (⟨l, p⟩ :: read) k

end Cursor

/-- **The stream of a source**, or the first fault in it. A step takes at
least one character unless it finds the end, so as many steps as there are
characters, and one for the end, are enough. -/
def Stream.ofSource (source : String) : Except Fault Stream :=
  (Cursor.start source).collect (source.length + 1) []

end Enablement
