import Enablement.Proofs.Expr.Relabelling
import Enablement.Proofs.Text.Lowercase
import Enablement.Proofs.Token.Spelling

/-!
# Tokens — the case of letters

A scanner asks for each character whether it is a blank, a digit, part of a
word, a quote or part of a symbol, and no answer depends on the case of a
letter. So a source in small letters is cut in the same places, into the same
lexemes with their texts in small letters, and refused for the same reason
(`Stream.ofSource_lower`).
-/

namespace Enablement

open Text (lower eq_toLower)

/-! ## Classes of characters -/

/-- A blank has no other case. -/
@[simp] theorem isBlank_toLower (c : Char) : isBlank c.toLower = isBlank c :=
  eq_toLower (f := isBlank) rfl c

/-- Nor has a digit. -/
@[simp] theorem isDigit_toLower (c : Char) : c.toLower.isDigit = c.isDigit :=
  eq_toLower (f := Char.isDigit) rfl c

/-- The start of a word is one in either case. -/
@[simp] theorem isWordStart_toLower (c : Char) : isWordStart c.toLower = isWordStart c :=
  eq_toLower (f := isWordStart) rfl c

/-- And so is any part of a word. -/
@[simp] theorem isWordPart_toLower (c : Char) : isWordPart c.toLower = isWordPart c :=
  eq_toLower (f := isWordPart) rfl c

/-- A quote has no other case either. -/
@[simp] theorem bne_quote_toLower (c : Char) : (c.toLower != '"') = (c != '"') :=
  eq_toLower (f := (· != '"')) rfl c

/-- Only what starts a word has a case. -/
theorem toLower_of_not_isWordStart {c : Char} (h : isWordStart c = false) : c.toLower = c := by
  rcases Text.toLower_eq_or_mem_capitals c with hc | hc
  · exact hc
  · have hstart : Text.capitals.all isWordStart = true := rfl
    rw [List.all_eq_true.1 hstart c hc] at h
    cases h

/-- So what starts no word is a character if it is its small form. -/
theorem beq_toLower {d : Char} (hd : isWordStart d = false) (c : Char) :
    (d == c.toLower) = (d == c) := by
  by_cases hc : isWordStart c = true
  · have hne : ∀ e, isWordStart e = true → (d == e) = false := by
      intro e he
      refine beq_eq_false_iff_ne.2 ?_
      rintro rfl
      rw [hd] at he
      cases he
    rw [hne c hc, hne c.toLower (by rw [isWordStart_toLower, hc])]
  · rw [toLower_of_not_isWordStart (Bool.eq_false_iff.2 hc)]

/-- So digits are lower-cased to themselves. -/
theorem toLower_of_isDigit {c : Char} (h : c.isDigit = true) : c.toLower = c := by
  refine toLower_of_not_isWordStart (Bool.eq_false_iff.2 fun hstart => ?_)
  rw [isDigit_of_isWordStart hstart] at h
  cases h

section

variable {q : Char → Bool} (hq : ∀ c, q c.toLower = q c) (cs : List Char)

include hq

/-- A run of a class that does not depend on case is found in either case. -/
theorem takeWhile_lower :
    (cs.map Char.toLower).takeWhile q = (cs.takeWhile q).map Char.toLower := by
  rw [List.takeWhile_map, show q ∘ Char.toLower = q from funext hq]

/-- And so is what follows it. -/
theorem dropWhile_lower :
    (cs.map Char.toLower).dropWhile q = (cs.dropWhile q).map Char.toLower := by
  rw [List.dropWhile_map, show q ∘ Char.toLower = q from funext hq]

end

/-! ## One lexeme -/

/-- No symbol has a letter in it. -/
theorem Symbol.isPrefixOf_lower (s : Symbol) (cs : List Char) :
    s.chars.isPrefixOf (cs.map Char.toLower) = s.chars.isPrefixOf cs := by
  have hchars : ∀ d ∈ s.chars, isWordStart d = false := fun d hd =>
    (isWordStart_of_not_isWordPart (isWordPart_of_mem_chars s d hd).1).1
  generalize s.chars = ds at hchars
  induction ds generalizing cs with
  | nil => simp [List.isPrefixOf]
  | cons d ds ih =>
    obtain ⟨hd, hds⟩ := List.forall_mem_cons.1 hchars
    cases cs with
    | nil => rfl
    | cons c cs =>
      rw [List.map_cons, List.isPrefixOf_cons_cons, List.isPrefixOf_cons_cons, ih cs hds,
        beq_toLower hd]

/-- Symbols are found in either case, having no letters. -/
theorem Symbol.scan?_lower (cs : List Char) : scan? (cs.map Char.toLower) = scan? cs := by
  simp only [scan?, isPrefixOf_lower]

/-- The lexeme of a word does not depend on its case, but for its text. -/
theorem Lexeme.ofWord_lower (word : String) :
    ofWord (lower word) = (ofWord word).mapText lower := by
  have hsame (other : String) : Text.sameName (lower word) other = Text.sameName word other := by
    rw [Text.sameName, Text.foldName_lower, Text.sameName]
  rw [ofWord, ofWord, hsame, hsame]
  split <;> rfl

namespace Scan

/-- What a step of a scanner does where all letters are small. -/
def lower (s : Scan) : Scan :=
  ⟨carry (Lexeme.mapText Text.lower) id s.outcome, s.taken.map Char.toLower,
    s.rest.map Char.toLower⟩

/-- A string is scanned in either case to strings that differ in case. -/
theorem string_lower (p : Nat) (cs : List Char) :
    string p (cs.map Char.toLower) = (string p cs).lower := by
  unfold string
  rw [takeWhile_lower bne_quote_toLower, dropWhile_lower bne_quote_toLower]
  cases h : cs.dropWhile (· != '"') with
  | nil => rfl
  | cons q rest =>
    simp [lower, carry, Lexeme.mapText, Text.lower_ofList]

/-- And so is an integer. -/
theorem integer_lower (p : Nat) (cs : List Char) :
    integer p (cs.map Char.toLower) = (integer p cs).lower := by
  have hdigits : (cs.takeWhile Char.isDigit).map Char.toLower = cs.takeWhile Char.isDigit := by
    refine (List.map_congr_left fun c hc => ?_).trans (List.map_id' _)
    exact toLower_of_isDigit (mem_takeWhile _ _ c hc)
  rw [integer, integer, takeWhile_lower isDigit_toLower, dropWhile_lower isDigit_toLower, lower,
    hdigits]
  congr 1
  split <;> rfl

/-- And a word. -/
theorem word_lower (cs : List Char) : word (cs.map Char.toLower) = (word cs).lower := by
  rw [word, word, takeWhile_lower isWordPart_toLower, dropWhile_lower isWordPart_toLower,
    ← Text.lower_ofList, Lexeme.ofWord_lower]
  rfl

/-- A symbol is scanned to the same symbol. -/
theorem symbol_lower (p : Nat) {c : Char} (hc : c.toLower = c) (cs : List Char) :
    symbol p c (cs.map Char.toLower) = (symbol p c cs).lower := by
  have hscan := Symbol.scan?_lower (c :: cs)
  rw [List.map_cons, hc] at hscan
  rw [symbol, symbol, hscan]
  cases h : Symbol.scan? (c :: cs) with
  | none => simp [lower, carry, hc]
  | some s =>
    have hchars : s.chars.map Char.toLower = s.chars := by cases s <;> rfl
    simp [lower, carry, Lexeme.mapText, hchars, List.map_drop, hc]

/-- **A scan does not see the case of letters.** -/
theorem lexeme_lower (p : Nat) (c : Char) (cs : List Char) :
    lexeme p c.toLower (cs.map Char.toLower) = (lexeme p c cs).lower := by
  rw [lexeme, lexeme, isDigit_toLower, isWordStart_toLower]
  by_cases hquote : c = '"'
  · rw [if_pos hquote, if_pos (by rw [hquote]; rfl), string_lower]
  have hquote' : c.toLower ≠ '"' :=
    bne_iff_ne.1 ((bne_quote_toLower c).trans (bne_iff_ne.2 hquote))
  rw [if_neg hquote, if_neg hquote']
  by_cases hdigit : c.isDigit = true
  · rw [if_pos hdigit, if_pos hdigit, ← integer_lower, List.map_cons]
  rw [if_neg hdigit, if_neg hdigit]
  by_cases hstart : isWordStart c = true
  · rw [if_pos hstart, if_pos hstart, ← word_lower, List.map_cons]
  have hsmall := toLower_of_not_isWordStart (Bool.eq_false_iff.2 hstart)
  rw [if_neg hstart, if_neg hstart, hsmall, symbol_lower p hsmall]

end Scan

/-! ## A whole source -/

/-- All texts in small letters, and every place as it is. -/
def lowering : Relabelling where
  text := lower
  place := id
  foldName_text := Text.foldName_lower

namespace Cursor

/-- The cursor in a source where all letters are small. -/
def lower (k : Cursor) : Cursor := ⟨k.rest.map Char.toLower, k.offset⟩

/-- The same blanks are passed over. -/
theorem skipBlanks_lower (k : Cursor) : k.lower.skipBlanks = k.skipBlanks.lower := by
  rw [lower, skipBlanks, takeWhile_lower isBlank_toLower, dropWhile_lower isBlank_toLower,
    List.length_map]
  rfl

/-- The token with its text in small letters. -/
def lowerToken (t : Token) : Token := ⟨t.val.map (Lexeme.mapText Text.lower), t.offset⟩

/-- **A step does not see the case of letters.** -/
theorem next_lower (k : Cursor) :
    k.lower.next = (carry lowerToken id k.next.1, k.next.2.lower) := by
  simp only [next, skipBlanks_lower]
  generalize k.skipBlanks = k
  obtain ⟨cs, p⟩ := k
  cases cs with
  | nil => rfl
  | cons c cs =>
    simp only [lower, List.map_cons, Scan.lexeme_lower]
    cases h : (Scan.lexeme p c cs).outcome with
    | error f => simp [Scan.lower, h, carry, Except.map]
    | ok l => simp [Scan.lower, h, carry, Except.map, lowerToken]

/-- So tokens are collected in step, and a fault ends both at the same place. -/
theorem collect_lower (n : Nat) (read : List (Located Lexeme)) (k : Cursor) :
    k.lower.collect n (read.map lowering.lexeme) = carry lowering.stream id (k.collect n read) := by
  induction n generalizing read k with
  | zero =>
    rw [collect, collect, ← List.map_reverse]
    rfl
  | succ n ih =>
    rw [collect, collect, next_lower]
    cases h : k.next with
    | mk r k' =>
      cases r with
      | error f => rfl
      | ok t =>
        obtain ⟨_ | l, p⟩ := t
        · simp only [carry, lowerToken, Option.map_none, ← List.map_reverse]
          rfl
        · exact ih (⟨l, p⟩ :: read) k'

end Cursor

/-- **A source in small letters is cut into the same lexemes**, with their texts
in small letters, or has the same fault. -/
theorem Stream.ofSource_lower (source : String) :
    ofSource (lower source) = carry lowering.stream id (ofSource source) := by
  have hlength : (lower source).length = source.length := by
    rw [← String.length_toList, Text.toList_lower, List.length_map, String.length_toList]
  have hstart : Cursor.start (lower source) = (Cursor.start source).lower := by
    rw [Cursor.start, Text.toList_lower]
    rfl
  rw [ofSource, ofSource, hlength, hstart]
  exact Cursor.collect_lower _ [] _

end Enablement
