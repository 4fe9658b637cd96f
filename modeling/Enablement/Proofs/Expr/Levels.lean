import Enablement.Proofs.Expr.Grammar

/-!
# Expressions — the levels that are open

A parenthesis opens a level of nesting, and an operator opens one before its
operand. The one is closed by its counterpart, the other with the operand. But
where a name was read, its operand may go on, as the name may be that of a
call; so such a level is taken back only by what follows, and a `Standing`
keeps it until then. Lexemes are read on from standing to standing, whatever
they are (`Standing.next`), and what derives leaves as many levels open as it
finds (`Derives.read_eq`).
-/

namespace Enablement

/-- What opens a level of nesting. -/
inductive Opener
  /-- An operator before its operand. -/
  | operator
  /-- A parenthesis. -/
  | parenthesis
deriving DecidableEq, Repr

/-- What is still open where an operand was read to its end: the operators
directly before it are done. -/
def Opener.settle (os : List Opener) : List Opener := os.dropWhile (· = .operator)

/-- How things stand between two lexemes of an expression. -/
structure Standing where
  /-- Whether an operand has to follow. -/
  awaits : Bool
  /-- What has opened the levels, the innermost first. -/
  opened : List Opener
deriving DecidableEq, Repr

namespace Standing

open Opener

/-- How things stand after the next lexeme. Where an operand has to follow, a
symbol is an operator before it, and else it ends the one that was read. -/
def next : Standing → Lexeme → Standing
  | ⟨_, os⟩, .symbol .leftParen => ⟨true, .parenthesis :: os⟩
  | ⟨_, os⟩, .symbol .rightParen => ⟨false, (settle os).tail⟩
  | ⟨true, os⟩, .symbol _ => ⟨true, .operator :: os⟩
  | ⟨false, os⟩, .symbol _ => ⟨true, settle os⟩
  | ⟨_, os⟩, _ => ⟨false, os⟩

/-- How things stand after some lexemes. -/
def read (x : Standing) (ts : List Lexeme) : Standing := ts.foldl next x

/-- How things stand after the first lexemes of an expression. -/
def after (ts : List Lexeme) : Standing := read ⟨true, []⟩ ts

/-- The number of levels that are open. -/
def level : Standing → Nat
  | ⟨true, os⟩ => os.length
  | ⟨false, os⟩ => (settle os).length

/-- The lexeme opens a level: it is a parenthesis, or an operator before its
operand. -/
def Opens (x : Standing) (t : Lexeme) : Prop :=
  t = .symbol .leftParen ∨ x.awaits = true ∧ ∃ op : UnaryOp, t = .symbol op.symbol

variable {x y : Standing} {t : Lexeme} {ts us : List Lexeme} {os : List Opener}

/-- Lexemes are read one by one. -/
@[simp] theorem read_cons : x.read (t :: ts) = (x.next t).read ts := rfl

/-- Two stretches of lexemes are read one after the other. -/
theorem read_append : x.read (ts ++ us) = (x.read ts).read us := List.foldl_append

/-- Lexemes that were read are read on from how things stand behind them. -/
theorem after_append (h : after ts = x) : after (ts ++ us) = x.read us := by
  rw [after, read_append, ← after, h]

/-- And so is a single one. -/
theorem after_concat (h : after ts = x) : after (ts ++ [t]) = x.next t := after_append h

/-- An operator before its operand opens a level. -/
theorem next_unaryOp (op : UnaryOp) :
    next ⟨true, os⟩ (.symbol op.symbol) = ⟨true, .operator :: os⟩ := by
  cases op <;> rfl

/-- An operator between its operands closes those of the operators before the left one. -/
theorem next_operator (op : Operator) :
    next ⟨false, os⟩ (.symbol op.symbol) = ⟨true, settle os⟩ := by
  cases op with | binary op | logical op => cases op <;> rfl

/-- And so does a comma. -/
theorem next_comma : next ⟨false, os⟩ (.symbol .comma) = ⟨true, settle os⟩ := rfl

end Standing

namespace Opener

variable {os os' : List Opener}

/-- An operator is settled with its operand. -/
@[simp] theorem settle_operator : settle (.operator :: os) = settle os := by simp [settle]

/-- A parenthesis is not, and nothing outside of it. -/
@[simp] theorem settle_parenthesis : settle (.parenthesis :: os) = .parenthesis :: os := by
  simp [settle]

/-- What was settled stays so. -/
@[simp] theorem settle_settle : settle (settle os) = settle os := by
  induction os with
  | nil => rfl
  | cons o os ih => cases o <;> simp [ih]

end Opener

/-! ## What derives leaves open what it finds open -/

open Opener Standing

mutual

/-- **A phrase closes the levels that it opens**, up to the operators before its
last operand; and with it the operators directly before it are done. -/
theorem Derives.read_eq {x : Phrase} {ts : List Lexeme} {e : Expr} (os : List Opener) :
    Derives x ts e → ∃ os', read ⟨true, os⟩ ts = ⟨false, os'⟩ ∧ settle os' = settle os
  | .chain _ h₁ h₂ => by
    obtain ⟨os', hl, hos'⟩ := h₁.read_eq os
    rw [read_append, hl, ← hos']
    exact h₂.read_eq os'
  | @Derives.unary op _ _ h => by
    rw [read_cons, next_unaryOp, ← settle_operator]
    exact h.read_eq (.operator :: os)
  | .primary h => h.read_eq os
  | .integer _ | .boolean | .string | .param => ⟨os, rfl, rfl⟩
  | .call h => ⟨os, h.read_eq os, rfl⟩
  | .parentheses h => by
    obtain ⟨os', hx, hos'⟩ := h.read_eq (.parenthesis :: os)
    refine ⟨os, ?_, rfl⟩
    rw [read_cons, next, read_append, hx, read_cons, next, hos', settle_parenthesis]
    rfl

/-- The rest of a chain leaves open what it finds open. -/
theorem DerivesChain.read_eq {ops : List Operator} {y : Phrase} {l e : Expr} {us : List Lexeme}
    (os : List Opener) :
    DerivesChain ops y l us e →
    ∃ os', read ⟨false, os⟩ us = ⟨false, os'⟩ ∧ settle os' = settle os
  | .done => ⟨os, rfl, rfl⟩
  | .more _ h₁ h₂ => by
    obtain ⟨os', hr, hos'⟩ := h₁.read_eq (settle os)
    rw [read_cons, next_operator, read_append, hr, ← settle_settle, ← hos']
    exact h₂.read_eq os'

/-- The arguments are read up to the parenthesis that closes them. -/
theorem DerivesArguments.read_eq {us : List Lexeme} {es : List Expr} (os : List Opener) :
    DerivesArguments us es →
    read ⟨true, .parenthesis :: os⟩ (us ++ [.symbol .rightParen]) = ⟨false, os⟩
  | .none => rfl
  | .some h₁ h₂ => by
    obtain ⟨os', hfirst, hos'⟩ := h₁.read_eq (.parenthesis :: os)
    rw [List.append_assoc, read_append, hfirst]
    exact h₂.read_eq os (hos'.trans settle_parenthesis)

/-- The arguments behind the first close the parenthesis of their call. -/
theorem DerivesMore.read_eq {us : List Lexeme} {es : List Expr} (os : List Opener)
    {os' : List Opener} :
    DerivesMore us es → settle os' = .parenthesis :: os →
    read ⟨false, os'⟩ (us ++ [.symbol .rightParen]) = ⟨false, os⟩
  | .done, hos' => by
    rw [List.nil_append, read_cons, next, hos']
    rfl
  | .more h₁ h₂, hos' => by
    obtain ⟨os'', hnext, hos''⟩ := h₁.read_eq (settle os')
    rw [List.cons_append, List.append_assoc, read_cons, next_comma, read_append, hnext]
    exact h₂.read_eq os (by rw [hos'', settle_settle, hos'])

end

/-- And so it is within an expression. -/
theorem Derives.after_eq {x : Phrase} {before ts : List Lexeme} {os : List Opener} {e : Expr}
    (h : Derives x ts e) (hbefore : after before = ⟨true, os⟩) :
    ∃ os', after (before ++ ts) = ⟨false, os'⟩ ∧ settle os' = settle os := by
  rw [after_append hbefore]
  exact h.read_eq os

end Enablement
