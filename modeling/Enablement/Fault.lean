import Enablement.Value

/-!
# Faults — why there is no answer

Every way in which a source can be refused or an expression can fail, as its
cause. A fault found before evaluation knows its place (`Fault.offset?`);
`Fault.message` is the wording and `Fault.stage` names who found it.
-/

namespace Enablement

/-- What a parser was looking for. -/
inductive Expected
  | operand
  | closingParen
  | commaOrClosingParen
  | operatorOrEnd
deriving DecidableEq, Repr

/-- The words for what was expected. -/
def Expected.describe : Expected → String
  | .operand => "operand"
  | .closingParen => "`)`"
  | .commaOrClosingParen => "`,` or `)`"
  | .operatorOrEnd => "operator or end of input"

/-- The stage that finds a fault. -/
inductive Stage
  | lexical | grammar | type | arithmetic | semantic | encoding
deriving DecidableEq, Repr

/-- The name of a stage. -/
def Stage.name : Stage → String
  | .lexical => "Lexical"
  | .grammar => "Syntax"
  | .type => "Type"
  | .arithmetic => "Arithmetic"
  | .semantic => "Semantic"
  | .encoding => "Encoding"

/-- Why there is no answer. -/
inductive Fault
  /-- A character that starts no lexeme. -/
  | unexpectedCharacter (c : Char) (offset : Nat)
  /-- A string literal, opened at `offset`, without a closing quote. -/
  | unterminatedString (offset : Nat)
  /-- An integer literal that does not fit into 32 bits. -/
  | integerOverflow (literal : String) (offset : Nat)
  /-- A lexeme that the grammar does not allow in its place. -/
  | unexpectedToken (found : Kind) (expected : Expected) (offset : Nat)
  /-- The input ends where more is required. -/
  | unexpectedEnd (expected : Expected) (offset : Nat)
  /-- More levels of nesting than the limit allows. -/
  | nestingTooDeep (limit offset : Nat)
  /-- An operator applied to an operand of a kind it does not take. -/
  | typeMismatch (op : Symbol) (expected got : ValueKind)
  /-- A division by zero. -/
  | divisionByZero
  /-- A call of a function that does not exist. -/
  | unknownFunction (name : String)
  /-- A surrogate outside a pair, at the given 16-bit unit. -/
  | invalidEncoding (unit : Nat)
deriving DecidableEq, Repr

namespace Fault

/-- The stage that finds the fault. -/
def stage : Fault → Stage
  | .unexpectedCharacter .. | .unterminatedString .. | .integerOverflow .. => .lexical
  | .unexpectedToken .. | .unexpectedEnd .. | .nestingTooDeep .. => .grammar
  | .typeMismatch .. => .type
  | .divisionByZero => .arithmetic
  | .unknownFunction .. => .semantic
  | .invalidEncoding .. => .encoding

/-- The place of a fault found before evaluation. -/
def offset? : Fault → Option Nat
  | .unexpectedCharacter _ p | .unterminatedString p | .integerOverflow _ p
  | .unexpectedToken _ _ p | .unexpectedEnd _ p | .nestingTooDeep _ p => some p
  | .typeMismatch .. | .divisionByZero | .unknownFunction .. | .invalidEncoding .. => none

/-- How a place is spoken of. -/
def atOffset (p : Nat) : String := " at offset " ++ Text.decimal p

/-- What is wrong, without the opening words that all faults share. -/
def detail : Fault → String
  | .unexpectedCharacter c p => "unexpected character `" ++ c.toString ++ "`" ++ atOffset p
  | .unterminatedString p => "unterminated string literal starting" ++ atOffset p
  | .integerOverflow t p => "integer literal `" ++ t ++ "`" ++ atOffset p ++ " is out of range"
  | .unexpectedToken k e p =>
    "unexpected " ++ k.describe ++ atOffset p ++ ", expected " ++ e.describe
  | .unexpectedEnd e p => "unexpected end of input" ++ atOffset p ++ ", expected " ++ e.describe
  | .nestingTooDeep n p => "nesting exceeds " ++ Text.decimal n ++ " levels" ++ atOffset p
  | .typeMismatch op e g =>
    "`" ++ op.spelling ++ "` expects " ++ e.name ++ " operands, got " ++ g.name
  | .divisionByZero => "division by zero"
  | .unknownFunction name => "unknown function `" ++ name ++ "`"
  | .invalidEncoding i => "source is not valid UTF-16 (unit " ++ Text.decimal i ++ ")"

/-- The text of a fault. -/
def message (f : Fault) : String := "invalid expression: " ++ f.detail

end Fault
end Enablement
