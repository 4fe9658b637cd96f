import Enablement.Proofs.Text.Decimal
import Enablement.Proofs.Token.Tiling

/-!
# Tokens — what a step finds

What a step finds is there, and it is all there: a word or a run of digits
cannot be made longer on either side, and a fault is reported only where
nothing can be read (`Finds`). To the right that is the greed of a scan. To the
left it is a fact of the whole run, which never stops within a word or a run of
digits (`Parted`).
-/

namespace Enablement

/-! ## Runs of a class -/

/-- The text stands in the source at the offset. -/
def StandsAt (cs : List Char) (p : Nat) (text : String) : Prop :=
  ∃ pre post, cs = pre ++ (text.toList ++ post) ∧ pre.length = p

/-- **A longest run** of a class of texts: the text is of the class and stands at
the offset, and no characters next to it, before or behind, can be added to it. -/
def LongestAt (R : String → Prop) (cs : List Char) (p : Nat) (text : String) : Prop :=
  R text ∧ ∃ pre post, cs = pre ++ (text.toList ++ post) ∧ pre.length = p ∧
    ∀ x y, x <:+ pre → y <+: post → R (String.ofList (x ++ (text.toList ++ y))) → x = [] ∧ y = []

/-- A lexeme can be written with the character first. -/
def Opens (c : Char) : Prop := ∃ l : Lexeme, l.WellSpelled ∧ l.spelling.toList.head? = some c

/-- The number that digits spell. -/
def digitsValue (text : String) : Nat := Nat.ofDigitChars 10 text.toList 0

/-- **What is found in a source** at an offset that is not blank: the end, a
lexeme, or a fault. -/
inductive Finds (cs : List Char) (p : Nat) : Except Fault (Option Lexeme) → Prop
  | stop : p = cs.length → Finds cs p (.ok none)
  | identifier {name : String} : LongestAt IsWord cs p name → ¬ IsTruthWord name →
      Finds cs p (.ok (some (.identifier name)))
  | boolean {text : String} : LongestAt IsWord cs p text → IsTruthWord text →
      Finds cs p (.ok (some (.boolean text)))
  | integer {text : String} : LongestAt IsDigits cs p text → digitsValue text ≤ 2147483647 →
      Finds cs p (.ok (some (.integer text)))
  | string {text : String} : StandsAt cs p ("\"" ++ text ++ "\"") → '"' ∉ text.toList →
      Finds cs p (.ok (some (.string text)))
  /-- A symbol that could go on with `=` is not followed by it. -/
  | symbol {s : Symbol} : StandsAt cs p s.spelling →
      (s ∈ [.not, .lt, .gt] → cs[p + 1]? ≠ some '=') → Finds cs p (.ok (some (.symbol s)))
  /-- Half of a symbol, or a character that opens no lexeme. -/
  | unexpectedCharacter {c : Char} : cs[p]? = some c →
      ((c ∈ ['&', '|', '='] ∧ cs[p + 1]? ≠ some c) ∨ ¬ Opens c) →
      Finds cs p (.error (.unexpectedCharacter c p))
  | integerOverflow {text : String} : LongestAt IsDigits cs p text →
      2147483647 < digitsValue text → Finds cs p (.error (.integerOverflow text p))
  | unterminatedString : cs[p]? = some '"' → (∀ i, p < i → cs[i]? ≠ some '"') →
      Finds cs p (.error (.unterminatedString p))

/-! ## Characters and numbers -/

/-- A word has a character at least. -/
theorem IsWord.toList_ne_nil {s : String} (h : IsWord s) : s.toList ≠ [] := by
  obtain ⟨c, cs, hcs, -⟩ := h
  rw [hcs]
  exact List.cons_ne_nil _ _

/-- And starts with one that starts words. -/
theorem IsWord.start_of_head? {s : String} {c : Char} (h : IsWord s)
    (hc : s.toList.head? = some c) : isWordStart c = true := by
  obtain ⟨d, ds, hds, hd, -⟩ := h
  rw [hds] at hc
  obtain rfl := Option.some.inj hc
  exact hd

/-- A word with one more of its characters is a word. -/
theorem IsWord.append_part {s : String} (h : IsWord s) (d : Char) (hd : isWordPart d = true) :
    IsWord (String.ofList (s.toList ++ [d])) := by
  obtain ⟨c, cs, hcs, hc, hpart⟩ := h
  refine ⟨c, cs ++ [d], by rw [String.toList_ofList, hcs]; rfl, hc, ?_⟩
  exact List.forall_mem_append.2 ⟨hpart, List.forall_mem_singleton.2 hd⟩

/-- A digit may stand in a word. -/
theorem isWordPart_of_isDigit {c : Char} (h : c.isDigit = true) : isWordPart c = true := by
  simp [isWordPart, Char.isAlphanum, h]

/-- So all digits of a number may. -/
theorem IsDigits.part_of_mem {s : String} (h : IsDigits s) :
    ∀ c ∈ s.toList, isWordPart c = true :=
  fun c hc => isWordPart_of_isDigit (h.2 c hc)

/-- Digits with one more are digits. -/
theorem IsDigits.append_digit {s : String} (h : IsDigits s) (d : Char) (hd : d.isDigit = true) :
    IsDigits (String.ofList (s.toList ++ [d])) := by
  rw [IsDigits, String.toList_ofList]
  exact ⟨by simp, List.forall_mem_append.2 ⟨h.2, List.forall_mem_singleton.2 hd⟩⟩

/-- **Digits spell a 32-bit integer if their number is small enough**, however
many zeros they begin with. -/
theorem IsDigits.isSome_int32OfText?_iff {text : String} (h : IsDigits text) :
    (Text.int32OfText? text).isSome = true ↔ digitsValue text ≤ 2147483647 := by
  have hne : text.toList.isEmpty = false := by simpa using h.1
  have hall : text.toList.all Char.isDigit = true := List.all_eq_true.2 h.2
  rw [Text.int32OfText?_of_isDigit h.2, Text.natOfDigits?, hne, hall]
  simp only [Bool.not_true, Bool.or_false, Bool.false_eq_true, if_false, Option.bind_some,
    Text.int32OfInt?, digitsValue]
  split
  next hfits => exact iff_of_true rfl (by omega)
  next hbig => exact iff_of_false (by simp) (by omega)

/-- Digits are out of range just if their number does not fit into 32 bits. -/
theorem IsDigits.int32OfText?_eq_none_iff {text : String} (h : IsDigits text) :
    Text.int32OfText? text = none ↔ 2147483647 < digitsValue text := by
  rw [← Option.not_isSome_iff_eq_none, h.isSome_int32OfText?_iff, Nat.not_le]

/-- What opens a lexeme. -/
theorem opens_iff {c : Char} :
    Opens c ↔ c = '"' ∨ c.isDigit = true ∨ isWordStart c = true ∨
      ∃ s : Symbol, s.chars.head? = some c := by
  constructor
  · rintro ⟨l, hl, hc⟩
    cases l with
    | symbol s =>
      rw [Lexeme.spelling, Symbol.spelling, String.toList_ofList] at hc
      exact .inr (.inr (.inr ⟨s, hc⟩))
    | identifier name => exact .inr (.inr (.inl (hl.1.start_of_head? hc)))
    | boolean text => exact .inr (.inr (.inl (hl.1.start_of_head? hc)))
    | integer text => exact .inr (.inl (hl.2.1 c (List.mem_of_head? hc)))
    | string text => exact .inl (by simpa [Lexeme.spelling, eq_comm] using hc)
  · -- the character alone is a lexeme, but for a quote and for half of a symbol
    have hone : (String.ofList [c]).toList = [c] := String.toList_ofList
    rintro (rfl | hdigit | hstart | ⟨s, hs⟩)
    · exact ⟨.string "", by simp [Lexeme.WellSpelled], rfl⟩
    · have hdigits : IsDigits (String.ofList [c]) := by simpa [IsDigits, hone] using hdigit
      have hvalue : digitsValue (String.ofList [c]) ≤ 2147483647 := by
        have hnine : c.toNat ≤ 57 := (Char.isDigit_iff_toNat.1 hdigit).2
        rw [digitsValue, hone]
        simp only [Nat.ofDigitChars, List.foldl_cons, List.foldl_nil]
        omega
      exact ⟨.integer _, ⟨hdigits.1, hdigits.2, hdigits.isSome_int32OfText?_iff.2 hvalue⟩,
        by rw [Lexeme.spelling, hone]; rfl⟩
    · have hword : IsWord (String.ofList [c]) := ⟨c, [], hone, hstart, by simp⟩
      by_cases htruth : IsTruthWord (String.ofList [c])
      · exact ⟨.boolean _, ⟨hword, htruth⟩, by rw [Lexeme.spelling, hone]; rfl⟩
      · exact ⟨.identifier _, ⟨hword, htruth⟩, by rw [Lexeme.spelling, hone]; rfl⟩
    · exact ⟨.symbol s, trivial, by rwa [Lexeme.spelling, Symbol.spelling, String.toList_ofList]⟩

namespace Symbol

variable {c : Char} {s : Symbol}

/-- What a symbol starts with is a symbol, or half of one. -/
theorem chars_eq_or_half (h : s.chars.head? = some c) :
    (∃ t ∈ all, t.chars = [c]) ∨ c ∈ ['&', '|', '='] ∧ ∃ t ∈ all, t.chars = [c, c] := by
  cases s <;> obtain rfl := Option.some.inj h <;> decide

/-- A symbol that starts with half of a doubled one is that one. -/
theorem chars_of_half (hc : c ∈ ['&', '|', '=']) (h : s.chars.head? = some c) :
    s.chars = [c, c] := by
  cases s <;> obtain rfl := Option.some.inj h <;> revert hc <;> decide

/-- Half of a symbol is neither a quote nor part of a word. -/
theorem not_part_of_half (hc : c ∈ ['&', '|', '=']) : c ≠ '"' ∧ isWordPart c = false := by
  simp only [List.mem_cons, List.not_mem_nil, or_false] at hc
  rcases hc with rfl | rfl | rfl <;> decide

/-- No symbol is found just if none stands in front. -/
theorem scan?_eq_none_iff_forall {cs : List Char} :
    scan? cs = none ↔ ∀ s : Symbol, ¬ s.chars <+: cs := by
  have hmem : ∀ s : Symbol, s ∈ all := by
    intro s
    cases s <;> decide
  rw [scan?, List.find?_eq_none]
  exact ⟨fun h s hs => h s (hmem s) (List.isPrefixOf_iff_prefix.2 hs),
    fun h s _ hs => h s (List.isPrefixOf_iff_prefix.1 hs)⟩

/-- No symbol is read where only half of one stands, or where none starts. -/
theorem scan?_eq_none_iff {cs : List Char} :
    scan? (c :: cs) = none ↔
      c ∈ ['&', '|', '='] ∧ cs.head? ≠ some c ∨ ∀ s : Symbol, s.chars.head? ≠ some c := by
  rw [scan?_eq_none_iff_forall]
  constructor
  · intro h
    -- some symbol starts so, and none stands there: the character is half of a doubled one
    refine Classical.or_iff_not_imp_right.2 fun hstart => ?_
    obtain ⟨s, hs⟩ := Classical.not_forall_not.1 hstart
    obtain ⟨t, -, ht⟩ | ⟨hc, t, -, ht⟩ := chars_eq_or_half hs
    · exact absurd ⟨cs, by rw [ht]; rfl⟩ (h t)
    · refine ⟨hc, fun hnext => h t ?_⟩
      obtain ⟨ds, rfl⟩ := List.head?_eq_some_iff.1 hnext
      exact ⟨ds, by rw [ht]; rfl⟩
  · rintro h s ⟨rest, hrest⟩
    have hs : s.chars.head? = some c := by
      cases hchars : s.chars with
      | nil => cases s <;> cases hchars
      | cons d ds =>
        rw [hchars] at hrest
        rw [(List.cons.inj hrest).1]
        rfl
    obtain ⟨hc, hnext⟩ | hnone := h
    · rw [chars_of_half hc hs] at hrest
      obtain ⟨-, rfl⟩ := List.cons.inj hrest
      exact hnext rfl
    · exact hnone s hs

/-- Only a symbol that could go on with `=` minds what follows it. -/
theorem endsBefore_iff {rest : List Char} :
    (Lexeme.symbol s).EndsBefore rest ↔
      (s ∈ [.not, .lt, .gt] → (s.chars ++ rest)[1]? ≠ some '=') := by
  cases s
  case not | lt | gt =>
    cases rest with
    | nil => simp [Lexeme.EndsBefore, chars]
    | cons c rest => simp [Lexeme.EndsBefore, Lexeme.continuedBy, chars]
  all_goals exact iff_of_true (fun _ _ => rfl) (fun hs => absurd hs (by decide))

end Symbol

/-! ## Where no run is cut -/

/-- No text of the class reaches from `pre` into `post`. -/
def Apart (R : String → Prop) (pre post : List Char) : Prop :=
  ∀ x y, x <:+ pre → y <+: post → R (String.ofList (x ++ y)) → x = [] ∨ y = []

/-- **No word and no run of digits is cut** between `pre` and `post`. -/
structure Parted (pre post : List Char) : Prop where
  word : Apart IsWord pre post
  digits : Apart IsDigits pre post

section

variable {R : String → Prop} {q : Char → Bool} {pre post : List Char} {text : String}

/-- What a text of the class cannot hold ends it, before the cut. -/
theorem apart_of_getLast? (hR : ∀ s, R s → ∀ c ∈ s.toList, q c = true) {d : Char}
    (hlast : pre.getLast? = some d) (hd : q d = false) : Apart R pre post := by
  intro x y hx hy hxy
  obtain ⟨init, rfl⟩ := List.getLast?_eq_some_iff.1 hlast
  obtain rfl | ⟨t, rfl, -⟩ := List.suffix_concat_iff.1 hx
  · exact .inl rfl
  · have hmem := hR _ hxy d (by simp)
    rw [hd] at hmem
    cases hmem

/-- And behind the cut. -/
theorem apart_of_head? (hR : ∀ s, R s → ∀ c ∈ s.toList, q c = true)
    (hpost : ∀ d ∈ post.head?, q d = false) : Apart R pre post := by
  intro x y hx hy hxy
  cases y with
  | nil => exact .inr rfl
  | cons d ds =>
    obtain ⟨ws, rfl⟩ := hy
    have hmem := hR _ hxy d (by simp)
    rw [hpost d rfl] at hmem
    cases hmem

/-- A text between two such places cannot be made longer. -/
theorem longestAt_of_apart (hR : ∀ s, R s → ∀ c ∈ s.toList, q c = true) (htext : R text)
    (hne : text.toList ≠ []) (hpre : Apart R pre (text.toList ++ post))
    (hpost : ∀ d ∈ post.head?, q d = false) :
    LongestAt R (pre ++ (text.toList ++ post)) pre.length text := by
  refine ⟨htext, pre, post, rfl, rfl, fun x y hx hy hxy => ⟨?_, ?_⟩⟩
  · obtain h | h := hpre x (text.toList ++ y) hx ((List.prefix_append_right_inj _).2 hy) hxy
    · exact h
    · exact absurd (List.append_eq_nil_iff.1 h).1 hne
  · have hbehind : Apart R (x ++ text.toList) post := apart_of_head? hR hpost
    rw [← List.append_assoc] at hxy
    obtain h | h := hbehind _ y (List.suffix_refl _) hy hxy
    · exact absurd (List.append_eq_nil_iff.1 h).2 hne
    · exact h

/-- Words are parted behind a character that is not part of them. -/
theorem parted_of_getLast? {d : Char} (hlast : pre.getLast? = some d)
    (hd : isWordPart d = false) : Parted pre post :=
  ⟨apart_of_getLast? (fun _ h => h.part_of_mem) hlast hd,
    apart_of_getLast? (fun _ h => h.part_of_mem) hlast hd⟩

/-- And before one. -/
theorem parted_of_head? (hpost : ∀ d ∈ post.head?, isWordPart d = false) : Parted pre post :=
  ⟨apart_of_head? (fun _ h => h.part_of_mem) hpost, apart_of_head? (fun _ h => h.part_of_mem) hpost⟩

/-- A word does not start with a digit. -/
theorem not_isWord_of_isDigit {d : Char} {ds : List Char} (hd : d.isDigit = true) :
    ¬ IsWord (String.ofList (d :: ds)) := by
  intro h
  have hstart : isWordStart d = true := h.start_of_head? (by rw [String.toList_ofList]; rfl)
  rw [isDigit_of_isWordStart hstart] at hd
  cases hd

/-- A letter may follow digits directly. A word that goes on with it would have
to begin before the digits, and so reach into them. -/
theorem Parted.digits_append (h : Parted pre (text.toList ++ post)) (htext : IsDigits text)
    (hpost : ∀ d ∈ post.head?, d.isDigit = false) : Parted (pre ++ text.toList) post := by
  refine ⟨?_, apart_of_head? (fun _ h => h.2) hpost⟩
  rintro x y ⟨w, hw⟩ hy hxy
  obtain ⟨c, cs, hcs⟩ := List.exists_cons_of_ne_nil htext.1
  have hdigit : ∀ d ∈ c :: cs, d.isDigit = true := hcs ▸ htext.2
  rw [hcs] at hw h
  -- the word begins before the digits, with the first of them, or within them
  obtain ⟨as, rfl, rfl⟩ | ⟨bs, rfl, hbs⟩ := List.append_eq_append_iff.1 hw
  · have hpre : as = [] ∨ c :: cs ++ y = [] :=
      h.word as (c :: cs ++ y) ⟨w, rfl⟩ ((List.prefix_append_right_inj _).2 hy)
        (by rwa [← List.append_assoc])
    obtain rfl | hnil := hpre
    · exact absurd hxy (not_isWord_of_isDigit (hdigit c List.mem_cons_self))
    · cases hnil
  · cases x with
    | nil => exact .inl rfl
    | cons d ds =>
      have hd : d ∈ c :: cs := by
        rw [hbs]
        simp
      exact absurd hxy (not_isWord_of_isDigit (hdigit d hd))

/-- Blanks are part of nothing. -/
theorem Parted.blanks_append {bs : List Char} (h : Parted pre (bs ++ post))
    (hbs : ∀ b ∈ bs, isBlank b = true) : Parted (pre ++ bs) post := by
  obtain rfl | ⟨init, b, rfl⟩ := List.eq_nil_or_concat bs
  · rwa [List.append_nil]
  · have hb : isBlank b = true := hbs b (by simp)
    exact parted_of_getLast? (by simp) (isWordPart_of_isBlank hb).1

/-- **A step cuts no run**, if the step before it cut none. -/
theorem Parted.scan {c : Char} {cs : List Char} (h : Parted pre (c :: cs)) (p : Nat) :
    Parted (pre ++ (Scan.lexeme p c cs).taken) (Scan.lexeme p c cs).rest := by
  have happend := Scan.lexeme_append p c cs
  cases houtcome : (Scan.lexeme p c cs).outcome with
  | ok l =>
    obtain ⟨hl, htaken, hends⟩ := Scan.reads_lexeme houtcome
    cases l with
    | symbol s =>
      have hne : s.chars ≠ [] := by cases s <;> exact List.cons_ne_nil _ _
      rw [htaken, Lexeme.spelling, Symbol.spelling, String.toList_ofList]
      refine parted_of_getLast? (d := s.chars.getLast hne) ?_
        (isWordPart_of_mem_chars s _ (List.getLast_mem hne)).1
      rw [List.getLast?_append, List.getLast?_eq_some_getLast hne, Option.some_or]
    | identifier name => exact parted_of_head? hends
    | boolean text => exact parted_of_head? hends
    | integer text =>
      rw [htaken]
      rw [← happend, htaken] at h
      exact h.digits_append ⟨hl.1, hl.2.1⟩ hends
    | string text =>
      have hlast : (pre ++ (Lexeme.string text).spelling.toList).getLast? = some '"' := by
        simp only [Lexeme.spelling, String.toList_append, List.getLast?_append]
        rfl
      rw [htaken]
      exact parted_of_getLast? hlast (by decide)
  | error f =>
    have hrefuses := Scan.refuses_lexeme houtcome
    generalize Scan.lexeme p c cs = s at hrefuses
    generalize c :: cs = all at h hrefuses
    -- what is taken for a fault is one run of digits, or part of none
    cases hrefuses with
    | string _ => exact parted_of_head? (by simp)
    | integer hdigits hends _ => exact h.digits_append hdigits hends
    | symbol _ hpart _ => exact parted_of_getLast? (by simp) hpart

end

/-! ## What is found -/

section

variable {cs pre post : List Char} {p : Nat} {f : Fault}

/-- A character of the text behind the cut. -/
theorem getElem?_append_add (i : Nat) : (pre ++ post)[pre.length + i]? = post[i]? := by
  rw [List.getElem?_append_right (Nat.le_add_right _ _), Nat.add_sub_cancel_left]

/-- An integer literal is spelled with digits. -/
theorem Lexeme.WellSpelled.isDigits {text : String} (h : (Lexeme.integer text).WellSpelled) :
    IsDigits text :=
  ⟨h.1, h.2.1⟩

/-- **A lexeme that is read is found.** -/
theorem finds_of_spelled {l : Lexeme} (hl : l.WellSpelled) (hends : l.EndsBefore post)
    (hparted : Parted pre (l.spelling.toList ++ post)) :
    Finds (pre ++ (l.spelling.toList ++ post)) pre.length (.ok (some l)) := by
  cases l with
  | symbol s =>
    refine .symbol ⟨pre, post, rfl, rfl⟩ ?_
    rw [getElem?_append_add, Lexeme.spelling, Symbol.spelling, String.toList_ofList]
    exact Symbol.endsBefore_iff.1 hends
  | identifier name =>
    exact .identifier (longestAt_of_apart (fun _ h => h.part_of_mem) hl.1 hl.1.toList_ne_nil
      hparted.word hends) hl.2
  | boolean text =>
    exact .boolean (longestAt_of_apart (fun _ h => h.part_of_mem) hl.1 hl.1.toList_ne_nil
      hparted.word hends) hl.2
  | integer text =>
    exact .integer (longestAt_of_apart (fun _ h => h.2) hl.isDigits hl.1 hparted.digits hends)
      (hl.isDigits.isSome_int32OfText?_iff.1 hl.2.2)
  | string text => exact .string ⟨pre, post, rfl, rfl⟩ hl

/-- What a word or a run of digits could be made longer with does not follow it. -/
theorem LongestAt.exists_ends {R : String → Prop} {q : Char → Bool} {text : String}
    (h : LongestAt R cs p text)
    (hq : ∀ c, q c = true → R (String.ofList (text.toList ++ [c]))) :
    ∃ pre post, cs = pre ++ (text.toList ++ post) ∧ pre.length = p ∧
      ∀ c ∈ post.head?, q c = false := by
  obtain ⟨-, pre, post, hcs, hp, hlongest⟩ := h
  refine ⟨pre, post, hcs, hp, fun c hc => Bool.eq_false_iff.2 fun hqc => ?_⟩
  obtain ⟨ds, rfl⟩ := List.head?_eq_some_iff.1 hc
  have hnil : [c] = [] := (hlongest [] [c] List.nil_suffix ⟨ds, rfl⟩ (hq c hqc)).2
  cases hnil

/-- **A lexeme that is found is there to be read.** -/
theorem Finds.spelled {l : Lexeme} (h : Finds cs p (.ok (some l))) :
    l.WellSpelled ∧ ∃ pre post, cs = pre ++ (l.spelling.toList ++ post) ∧ pre.length = p ∧
      l.EndsBefore post := by
  cases h with
  | identifier hname htruth => exact ⟨⟨hname.1, htruth⟩, hname.exists_ends hname.1.append_part⟩
  | boolean htext htruth => exact ⟨⟨htext.1, htruth⟩, htext.exists_ends htext.1.append_part⟩
  | integer htext hfits =>
    exact ⟨⟨htext.1.1, htext.1.2, htext.1.isSome_int32OfText?_iff.2 hfits⟩,
      htext.exists_ends htext.1.append_digit⟩
  | string htext hquote =>
    obtain ⟨pre, post, hcs, hp⟩ := htext
    exact ⟨hquote, pre, post, hcs, hp, fun _ _ => rfl⟩
  | symbol hs hnext =>
    obtain ⟨pre, post, rfl, rfl⟩ := hs
    rw [getElem?_append_add, Symbol.spelling, String.toList_ofList] at hnext
    exact ⟨trivial, pre, post, rfl, rfl, Symbol.endsBefore_iff.2 hnext⟩

/-- **A fault that is reported is found.** -/
theorem finds_of_refuses {s : Scan} (h : Scan.Refuses pre.length post s)
    (hparted : Parted pre post) : Finds (pre ++ post) pre.length (s.outcome.map some) := by
  cases h with
  | @string cs hquote =>
    refine .unterminatedString (getElem?_append_add 0) fun i hi hc => ?_
    obtain ⟨j, rfl⟩ : ∃ j, i = pre.length + (j + 1) := ⟨i - pre.length - 1, by omega⟩
    rw [getElem?_append_add, List.getElem?_cons_succ] at hc
    exact hquote (List.mem_of_getElem? hc)
  | integer hdigits hends hbig =>
    exact .integerOverflow (longestAt_of_apart (fun _ h => h.2) hdigits hdigits.1 hparted.digits
      hends) (hdigits.int32OfText?_eq_none_iff.1 hbig)
  | @symbol c cs hquote hpart hsymbol =>
    refine .unexpectedCharacter (getElem?_append_add 0) ?_
    rw [getElem?_append_add, List.getElem?_cons_succ, ← List.head?_eq_getElem?]
    obtain ⟨hstart, hdigit⟩ := isWordStart_of_not_isWordPart hpart
    refine (Symbol.scan?_eq_none_iff.1 hsymbol).imp_right fun hnone hopens => ?_
    obtain hc | hc | hc | ⟨s, hs⟩ := opens_iff.1 hopens
    · exact hquote hc
    · simp [hdigit] at hc
    · simp [hstart] at hc
    · exact hnone s hs

/-- A character at an offset stands behind as many others. -/
theorem exists_append_of_getElem? {c : Char} (h : cs[p]? = some c) :
    ∃ pre post, cs = pre ++ c :: post ∧ pre.length = p := by
  obtain ⟨hp, rfl⟩ := List.getElem?_eq_some_iff.1 h
  refine ⟨cs.take p, cs.drop (p + 1), ?_, List.length_take_of_le (Nat.le_of_lt hp)⟩
  rw [← List.drop_eq_getElem_cons hp, List.take_append_drop]

/-- **A fault that is found is there to be reported.** -/
theorem Finds.refused (h : Finds cs p (.error f)) :
    ∃ pre post s, cs = pre ++ post ∧ pre.length = p ∧ Scan.Refuses p post s ∧
      s.outcome = .error f := by
  cases h with
  | unterminatedString hquote hnone =>
    obtain ⟨pre, post, rfl, rfl⟩ := exists_append_of_getElem? hquote
    refine ⟨pre, _, _, rfl, rfl, .string fun hmem => ?_, rfl⟩
    obtain ⟨i, hi⟩ := List.mem_iff_getElem?.1 hmem
    -- a quote in the rest would be one in the source, behind the opening one
    refine hnone (pre.length + (i + 1)) (by omega) ?_
    rwa [getElem?_append_add, List.getElem?_cons_succ]
  | integerOverflow htext hbig =>
    obtain ⟨pre, post, rfl, rfl, hends⟩ := htext.exists_ends htext.1.append_digit
    exact ⟨pre, _, _, rfl, rfl, .integer htext.1 hends (htext.1.int32OfText?_eq_none_iff.2 hbig),
      rfl⟩
  | @unexpectedCharacter c hc hreason =>
    obtain ⟨pre, post, rfl, rfl⟩ := exists_append_of_getElem? hc
    rw [getElem?_append_add, List.getElem?_cons_succ, ← List.head?_eq_getElem?] at hreason
    have hopens : (c ≠ '"' ∧ isWordPart c = false) ∧ Symbol.scan? (c :: post) = none := by
      rw [Symbol.scan?_eq_none_iff]
      obtain ⟨hhalf, hnext⟩ | hopens := hreason
      · exact ⟨Symbol.not_part_of_half hhalf, .inl ⟨hhalf, hnext⟩⟩
      · rw [opens_iff, not_or, not_or, not_or, Bool.not_eq_true, Bool.not_eq_true,
          not_exists] at hopens
        obtain ⟨hquote, hdigit, hstart, hnone⟩ := hopens
        exact ⟨⟨hquote, isWordPart_eq_false hstart hdigit⟩, .inr hnone⟩
    exact ⟨pre, _, _, rfl, rfl, .symbol hopens.1.1 hopens.1.2 hopens.2, rfl⟩

/-- **What a scan makes of a source is what is found there**, where no run is cut. -/
theorem finds_iff_scan {c : Char} {o : Except Fault (Option Lexeme)} (h : Parted pre (c :: post)) :
    (Scan.lexeme pre.length c post).outcome.map some = o ↔
      Finds (pre ++ c :: post) pre.length o := by
  constructor
  · rintro rfl
    cases houtcome : (Scan.lexeme pre.length c post).outcome with
    | ok l =>
      obtain ⟨hl, htaken, hends⟩ := Scan.reads_lexeme houtcome
      -- the source is what the scan took and what it left
      rw [← Scan.lexeme_append pre.length c post, htaken] at h ⊢
      exact finds_of_spelled hl hends h
    | error f =>
      have hfinds := finds_of_refuses (Scan.refuses_lexeme houtcome) h
      rwa [houtcome] at hfinds
  · intro hfinds
    match o, hfinds with
    | .ok none, .stop hp =>
      rw [List.length_append, List.length_cons] at hp
      omega
    | .ok (some l), hfinds =>
      obtain ⟨hl, pre', post', hsplit, hlength, hends⟩ := hfinds.spelled
      obtain ⟨rfl, hread⟩ := List.append_inj hsplit hlength.symm
      rw [Scan.lexeme_of_wellSpelled hl hends hread.symm]
      rfl
    | .error f, hfinds =>
      obtain ⟨pre', post', s, hsplit, hlength, hrefuses, houtcome⟩ := hfinds.refused
      obtain ⟨rfl, rfl⟩ := List.append_inj hsplit hlength.symm
      rw [hrefuses.lexeme_eq, houtcome]
      rfl

/-- Behind the last character there is the end, and nothing else. -/
theorem finds_length_iff {o : Except Fault (Option Lexeme)} :
    .ok none = o ↔ Finds cs cs.length o := by
  constructor
  · rintro rfl
    exact .stop rfl
  · intro hfinds
    match o, hfinds with
    | .ok none, _ => rfl
    | .ok (some l), hfinds =>
      obtain ⟨hl, pre, post, hsplit, hlength, -⟩ := hfinds.spelled
      obtain ⟨c, ds, hcs, -⟩ := hl.exists_cons
      have hlong := congrArg List.length hsplit
      simp only [hcs, List.length_append, List.length_cons] at hlong
      omega
    | .error f, hfinds =>
      obtain ⟨pre, post, s, rfl, hlength, hrefuses, -⟩ := hfinds.refused
      have hpost : post = [] := by
        rw [List.length_append] at hlength
        exact List.eq_nil_of_length_eq_zero (by omega)
      cases hrefuses with
      | string _ => cases hpost
      | symbol _ _ _ => cases hpost
      | integer hdigits _ _ => exact absurd (List.append_eq_nil_iff.1 hpost).1 hdigits.1

end

/-! ## Runs -/

namespace Cursor

variable {cs : List Char} {k : Cursor} {p : Nat}

/-- The cursor stands in the source where no run is cut. -/
def BetweenRuns (cs : List Char) (k : Cursor) : Prop :=
  ∃ pre, k.Behind cs pre ∧ Parted pre k.rest

/-- At the start the cursor stands between runs. -/
theorem betweenRuns_start (source : String) : (start source).BetweenRuns source.toList :=
  ⟨[], behind_start source, fun _ _ hx _ _ => .inl (List.suffix_nil.1 hx),
    fun _ _ hx _ _ => .inl (List.suffix_nil.1 hx)⟩

/-- A step leaves the cursor where no run is cut. -/
theorem BetweenRuns.next (h : k.BetweenRuns cs) : k.next.2.BetweenRuns cs := by
  obtain ⟨pre, hbehind, hparted⟩ := h
  obtain ⟨hnext, -⟩ | ⟨bs, c, rest, hrest, hblanks, -, rfl, -, hnext⟩ := hbehind.next_cases
  · rw [hnext]
    exact ⟨cs, ⟨(List.append_nil cs).symm, rfl⟩, parted_of_head? (by simp)⟩
  · rw [hnext]
    rw [hrest] at hparted
    exact ⟨_, behind_scan (pre ++ bs) c rest, (hparted.blanks_append hblanks).scan _⟩

/-- And so it does after any number of steps. -/
theorem BetweenRuns.after (h : k.BetweenRuns cs) (n : Nat) : (k.after n).BetweenRuns cs := by
  induction n generalizing k with
  | zero => exact h
  | succ n ih => exact ih h.next

/-- **A step finds what is there** behind the blanks, and nothing else. -/
theorem BetweenRuns.exists_finds (h : k.BetweenRuns cs) :
    ∃ (p : Nat) (o : Except Fault (Option Lexeme)), k.offset ≤ p ∧ p ≤ cs.length ∧
      BlankBetween cs k.offset p ∧ (∀ c, cs[p]? = some c → isBlank c = false) ∧
      k.next.1 = o.map (fun l => ⟨l, p⟩) ∧ ∀ o', o = o' ↔ Finds cs p o' := by
  obtain ⟨pre, hbehind, hparted⟩ := h
  have hlength := hbehind.offset_add_length
  have hoffset := hbehind.offset
  obtain ⟨hnext, hblanks⟩ | ⟨bs, c, rest, hrest, hbs, hc, rfl, hblanks, hnext⟩ :=
    hbehind.next_cases
  · refine ⟨cs.length, .ok none, by omega, Nat.le_refl _, hblanks, by simp, ?_,
      fun o => finds_length_iff⟩
    rw [hnext]
    rfl
  · -- the blanks cut no run either, so the scan finds what is there
    rw [hrest] at hparted
    refine ⟨(pre ++ bs).length, (Scan.lexeme (pre ++ bs).length c rest).outcome.map some, ?_, ?_,
      hblanks, ?_, ?_, fun o => finds_iff_scan (hparted.blanks_append hbs)⟩
    · rw [List.length_append]
      omega
    · exact (List.prefix_append _ _).length_le
    · intro d hd
      rw [List.getElem?_append_right (Nat.le_refl _), Nat.sub_self] at hd
      obtain rfl := Option.some.inj hd
      exact hc
    · rw [hnext]
      cases (Scan.lexeme (pre ++ bs).length c rest).outcome <;> rfl

/-- A fault is found just where there is a character and no lexeme. -/
theorem exists_fault_iff {o : Except Fault (Option Lexeme)} (hp : p ≤ cs.length)
    (hfinds : ∀ o', o = o' ↔ Finds cs p o') :
    (∃ f, o = .error f) ↔ p < cs.length ∧ ∀ l, ¬ Finds cs p (.ok (some l)) := by
  constructor
  · rintro ⟨f, rfl⟩
    refine ⟨Nat.lt_of_le_of_ne hp fun hend => ?_, fun l hl => ?_⟩
    · have hnone := (hfinds _).2 (.stop hend)
      cases hnone
    · have hlexeme := (hfinds _).2 hl
      cases hlexeme
  · rintro ⟨hlt, hnone⟩
    have hfound := (hfinds o).1 rfl
    match o, hfound with
    | .error f, _ => exact ⟨f, rfl⟩
    | .ok (some l), hl => exact absurd hl (hnone l)
    | .ok none, .stop hend => exact absurd hend (Nat.ne_of_lt hlt)

/-- Outcomes at one offset differ if what they give does. -/
theorem map_token_inj {o o' : Except Fault (Option Lexeme)} :
    o.map (fun l => (⟨l, p⟩ : Token)) = o'.map (fun l => ⟨l, p⟩) ↔ o = o' := by
  cases o <;> cases o' <;> simp [Except.map]

/-- **Every step of a run gives what is found.** It goes behind the blanks where
the cursor stands, to the end or to the next character, and gives exactly what is
found at this offset: the end, a lexeme or a fault (`Finds`). It gives a fault just
where there is a character and no lexeme is found. -/
theorem step_gives_what_is_found (source : String) (n : Nat) :
    ∃ p, ((start source).after n).offset ≤ p ∧ p ≤ source.length ∧
      (∀ (i : Nat) (c : Char), ((start source).after n).offset ≤ i → i < p →
        source.toList[i]? = some c → c ∈ [' ', '\t', '\n', '\x0c', '\r']) ∧
      (∀ c, source.toList[p]? = some c → c ∉ [' ', '\t', '\n', '\x0c', '\r']) ∧
      (∀ o : Except Fault (Option Lexeme),
        ((start source).after n).next.1 = o.map (fun l => ⟨l, p⟩) ↔ Finds source.toList p o) ∧
      ((∃ f, ((start source).after n).next.1 = .error f) ↔
        p < source.length ∧ ∀ l, ¬ Finds source.toList p (.ok (some l))) := by
  obtain ⟨p, o, hoffset, hlength, hblanks, hc, hgives, hfinds⟩ :=
    ((betweenRuns_start source).after n).exists_finds
  have hfault := exists_fault_iff hlength hfinds
  rw [String.length_toList] at hlength hfault
  refine ⟨p, hoffset, hlength, fun i c hi hip hic => isBlank_iff_mem.1 (hblanks i c hi hip hic),
    fun c hpc => ?_, fun o' => ?_, ?_⟩
  · rw [← isBlank_iff_mem, hc c hpc]
    exact Bool.false_ne_true
  · rw [hgives, map_token_inj, hfinds]
  · rw [hgives, ← hfault]
    cases o <;> simp [Except.map]

example : (start "007abc!!=").steps 5 =
    [.ok ⟨some (.integer "007"), 0⟩, .ok ⟨some (.identifier "abc"), 3⟩,
      .ok ⟨some (.symbol .not), 6⟩, .ok ⟨some (.symbol .ne), 7⟩, .ok ⟨none, 9⟩] := rfl

end Cursor
end Enablement
