/-!
# Tokens — what a source is cut into

A **lexeme** is a symbol, a name or a literal; it says nothing of where it
stands. A **token** is a lexeme or the end of input, at an offset counted in
characters. A **stream** is what a parser reads: lexemes with their offsets,
and the offset at which they end. Every list of tokens makes a stream, of
which only the part before the first end of input counts (`Stream.ofTokens`).
-/

namespace Enablement

/-- A thing and the offset at which it starts. -/
structure Located (α : Type) where
  /-- The thing. -/
  val : α
  /-- Its first character, counted from 0. -/
  offset : Nat
deriving DecidableEq, Repr

/-- The operators and the punctuation of expressions. -/
inductive Symbol
  | leftParen | rightParen | comma
  | or | and | eq | ne | gt | ge | lt | le
  | star | slash | plus | minus | not
deriving DecidableEq, Repr

/-- The characters that a symbol is written with. -/
def Symbol.chars : Symbol → List Char
  | .leftParen => ['(']
  | .rightParen => [')']
  | .comma => [',']
  | .or => ['|', '|']
  | .and => ['&', '&']
  | .eq => ['=', '=']
  | .ne => ['!', '=']
  | .gt => ['>']
  | .ge => ['>', '=']
  | .lt => ['<']
  | .le => ['<', '=']
  | .star => ['*']
  | .slash => ['/']
  | .plus => ['+']
  | .minus => ['-']
  | .not => ['!']

/-- How a symbol is written. -/
def Symbol.spelling (s : Symbol) : String := String.ofList s.chars

/-- The symbols, those of two characters first. -/
def Symbol.all : List Symbol :=
  [.or, .and, .eq, .ne, .ge, .le,
   .leftParen, .rightParen, .comma, .gt, .lt, .star, .slash, .plus, .minus, .not]

/-- The kinds of tokens, as diagnostics speak of them. -/
inductive Kind
  | endOfInput
  | symbol (s : Symbol)
  | identifier
  | boolean
  | integer
  | string
deriving DecidableEq, Repr

/-- The words for a kind in a diagnostic; a symbol is quoted. -/
def Kind.describe : Kind → String
  | .endOfInput => "end of input"
  | .symbol s => "`" ++ s.spelling ++ "`"
  | .identifier => "identifier"
  | .boolean => "boolean literal"
  | .integer => "integer literal"
  | .string => "string literal"

/-- A piece of a source with a meaning of its own. A name or a literal that comes
without a text has the empty one. A symbol has none, because no parser reads the text
of a symbol. -/
inductive Lexeme
  /-- An operator or a mark of punctuation. -/
  | symbol (s : Symbol)
  /-- The name of a variable or a function. -/
  | identifier (name : String)
  /-- The word for a truth value, in the case it was written in. -/
  | boolean (text : String)
  /-- An integer literal, with the digits it was written in. -/
  | integer (text : String)
  /-- A string literal, without its quotes. -/
  | string (text : String)
deriving DecidableEq, Repr

namespace Lexeme

/-- The kind of a lexeme. -/
def kind : Lexeme → Kind
  | .symbol s => .symbol s
  | .identifier _ => .identifier
  | .boolean _ => .boolean
  | .integer _ => .integer
  | .string _ => .string

/-- What a name or a literal says; a symbol carries no text. -/
def text? : Lexeme → Option String
  | .symbol _ => none
  | .identifier t | .boolean t | .integer t | .string t => some t

/-- How the lexeme is written in a source. -/
def spelling : Lexeme → String
  | .symbol s => s.spelling
  | .identifier t | .boolean t | .integer t => t
  | .string t => "\"" ++ t ++ "\""

end Lexeme

/-- A lexeme, or the end of input (`none`), and its place. Nor does a parser read
the text of an end of input. -/
abbrev Token := Located (Option Lexeme)

namespace Token

/-- The kind of a token. -/
def kind (t : Token) : Kind := t.val.elim .endOfInput Lexeme.kind

/-- What a token says, if it is a name or a literal. -/
def text? (t : Token) : Option String := t.val.bind Lexeme.text?

end Token

/-- What a parser reads: lexemes in order, and where they end. -/
structure Stream where
  /-- The lexemes. -/
  lexemes : List (Located Lexeme)
  /-- The offset of the end of input. -/
  stop : Nat
deriving DecidableEq, Repr

namespace Stream

/-- The offset of the end of input for a list of tokens without one, where
`stop` is one past the offset before it: it follows the last token. An offset is
less than the greatest number of a machine word, so one past it is an offset too. -/
def ofTokensFrom (stop : Nat) : List Token → Stream
  | [] => ⟨[], stop⟩
  | ⟨none, p⟩ :: _ => ⟨[], p⟩
  | ⟨some l, p⟩ :: ts =>
    let s := ofTokensFrom (p + 1) ts
    ⟨⟨l, p⟩ :: s.lexemes, s.stop⟩

/-- **The stream of a token list.** It ends at the first end of input; where
there is none it ends one past the last token, or at 0. -/
def ofTokens (ts : List Token) : Stream := ofTokensFrom 0 ts

/-- The tokens of a stream: its lexemes and then the end of input. -/
def toTokens (s : Stream) : List Token :=
  s.lexemes.map (fun l => ⟨some l.val, l.offset⟩) ++ [⟨none, s.stop⟩]

/-- A stream stops at the first end of input, whatever follows it. -/
theorem ofTokensFrom_append (stop p : Nat) (ls : List (Located Lexeme)) (rest : List Token) :
    ofTokensFrom stop (ls.map (fun l => ⟨some l.val, l.offset⟩) ++ ⟨none, p⟩ :: rest) =
      ⟨ls, p⟩ := by
  induction ls generalizing stop with
  | nil => rfl
  | cons l ls ih => simp [ofTokensFrom, ih]

/-- The tokens of a stream make the stream. -/
@[simp] theorem ofTokens_toTokens (s : Stream) : ofTokens s.toTokens = s :=
  ofTokensFrom_append 0 s.stop s.lexemes []

end Stream
end Enablement
