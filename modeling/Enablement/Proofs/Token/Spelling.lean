import Enablement.Token.Scan

/-!
# Tokens — which sources spell which lexemes

A source spells a list of lexemes if it holds them in order, written as they
are, with blanks before, between and after them, and if none is followed
directly by a character that would be read as part of it. That is what a scan
finds: the lexemes of a source are the ones that it spells
(`Stream.ofSource_iff_spells`).
-/

namespace Enablement

/-! ## How lexemes are written -/

/-- A letter or an underscore, and then letters, digits and underscores. -/
def IsWord (s : String) : Prop :=
  ∃ c cs, s.toList = c :: cs ∧ isWordStart c = true ∧ ∀ d ∈ cs, isWordPart d = true

/-- One of the two words for truth values, in whatever case. -/
def IsTruthWord (s : String) : Prop :=
  Text.sameName s "true" = true ∨ Text.sameName s "false" = true

/-- One digit or more, and nothing else. -/
def IsDigits (s : String) : Prop := s.toList ≠ [] ∧ ∀ c ∈ s.toList, c.isDigit = true

/-- A word that can name a variable or a function. -/
def IsName (s : String) : Prop := IsWord s ∧ ¬ IsTruthWord s

namespace Lexeme

/-- What the text of a lexeme has to be for a source to hold it. -/
def WellSpelled : Lexeme → Prop
  | .symbol _ => True
  | .identifier name => IsName name
  | .boolean text => IsWord text ∧ IsTruthWord text
  | .integer text =>
    text.toList ≠ [] ∧ (∀ c ∈ text.toList, c.isDigit = true) ∧
      (Text.int32OfText? text).isSome = true
  | .string text => '"' ∉ text.toList

/-- Whether a character directly behind a lexeme would be read as part of it. -/
def continuedBy : Lexeme → Char → Bool
  | .symbol .not, c | .symbol .gt, c | .symbol .lt, c => c == '='
  | .symbol _, _ => false
  | .identifier _, c | .boolean _, c => isWordPart c
  | .integer _, c => c.isDigit
  | .string _, _ => false

/-- What follows a lexeme does not continue it. -/
def EndsBefore (l : Lexeme) (rest : List Char) : Prop :=
  ∀ c ∈ rest.head?, l.continuedBy c = false

end Lexeme

/-- **The characters spell the lexemes.** -/
inductive Spells : List Char → List Lexeme → Prop
  /-- Blanks alone spell nothing. -/
  | blanks {bs : List Char} : (∀ b ∈ bs, isBlank b = true) → Spells bs []
  /-- Blanks, a lexeme, and what follows it. -/
  | lexeme {bs rest : List Char} {l : Lexeme} {ls : List Lexeme} :
      (∀ b ∈ bs, isBlank b = true) → l.WellSpelled → l.EndsBefore rest → Spells rest ls →
      Spells (bs ++ (l.spelling.toList ++ rest)) (l :: ls)

/-- The lexemes that a text spells are spelled well. -/
theorem Spells.wellSpelled {cs : List Char} {ls : List Lexeme} (h : Spells cs ls) :
    ∀ l ∈ ls, l.WellSpelled := by
  induction h with
  | blanks _ => simp
  | lexeme _ hl _ _ ih => exact List.forall_mem_cons.2 ⟨hl, ih⟩

/-! ## Characters -/

/-- No digit starts a word. -/
theorem isDigit_of_isWordStart {c : Char} (h : isWordStart c = true) : c.isDigit = false := by
  refine Bool.eq_false_iff.2 fun hd => ?_
  have hdigit : c.toNat ≤ 57 := (Char.isDigit_iff_toNat.1 hd).2
  rw [isWordStart, Bool.or_eq_true, beq_iff_eq] at h
  rcases h with h | rfl
  · -- both runs of letters lie above the digits
    have hletter : 65 ≤ c.toNat := by
      have h : (c.isUpper || c.isLower) = true := h
      rcases Bool.or_eq_true_iff.1 h with hu | hl
      · exact UInt32.le_iff_toNat_le.1 (of_decide_eq_true hu).1
      · have hlow : 97 ≤ c.toNat :=
          UInt32.le_iff_toNat_le.1 (of_decide_eq_true (Bool.and_eq_true_iff.1 hl).1)
        omega
    omega
  · exact absurd hd (by decide)

/-- What starts a word may stand in it. -/
theorem isWordPart_of_isWordStart {c : Char} (h : isWordStart c = true) : isWordPart c = true := by
  simp only [isWordStart, isWordPart, Char.isAlphanum, Bool.or_eq_true] at h ⊢
  rcases h with h | h <;> simp [h]

/-- So may all characters of a word. -/
theorem IsWord.part_of_mem {s : String} (h : IsWord s) : ∀ c ∈ s.toList, isWordPart c = true := by
  obtain ⟨c, cs, hcs, hc, hpart⟩ := h
  rw [hcs]
  exact List.forall_mem_cons.2 ⟨isWordPart_of_isWordStart hc, hpart⟩

/-- A blank is part of no word, and opens nothing else. -/
theorem isWordPart_of_isBlank {c : Char} (h : isBlank c = true) :
    isWordPart c = false ∧ c ≠ '"' ∧ ∀ s : Symbol, c ∉ s.chars := by
  simp only [isBlank, Bool.or_eq_true, beq_iff_eq] at h
  rcases h with (((rfl | rfl) | rfl) | rfl) | rfl <;>
    exact ⟨by decide, by decide, fun s => by cases s <;> decide⟩

/-- What is part of no word starts none, and is no digit. -/
theorem isWordStart_of_not_isWordPart {c : Char} (h : isWordPart c = false) :
    isWordStart c = false ∧ c.isDigit = false := by
  simp only [isWordPart, isWordStart, Char.isAlphanum, Bool.or_eq_false_iff] at h ⊢
  exact ⟨⟨h.1.1, h.2⟩, h.1.2⟩

/-- What neither starts a word nor is a digit is no part of one. -/
theorem isWordPart_eq_false {c : Char} (hstart : isWordStart c = false)
    (hdigit : c.isDigit = false) : isWordPart c = false := by
  simp only [isWordStart, Bool.or_eq_false_iff] at hstart
  simp [isWordPart, Char.isAlphanum, hstart, hdigit]

/-- The characters of a symbol are neither parts of words nor quotes. -/
theorem isWordPart_of_mem_chars (s : Symbol) :
    ∀ c ∈ s.chars, isWordPart c = false ∧ c ≠ '"' := by
  have hall : s.chars.all (fun c => !isWordPart c && c != '"') = true := by cases s <;> rfl
  simpa using hall

/-! ## Scanning one lexeme -/

/-- A run of characters of a class ends where the next one is not of it. -/
theorem span_append {p : Char → Bool} {cs : List Char} (hcs : ∀ c ∈ cs, p c = true)
    (rest : List Char) (hrest : ∀ c ∈ rest.head?, p c = false) :
    (cs ++ rest).takeWhile p = cs ∧ (cs ++ rest).dropWhile p = rest := by
  rw [List.takeWhile_append_of_pos hcs, List.dropWhile_append_of_pos hcs]
  cases rest with
  | nil => simp
  | cons c rest =>
    have := hrest c rfl
    simp [this]

/-- A run of characters of a class goes as far as it can. -/
theorem head?_dropWhile (q : Char → Bool) (cs : List Char) :
    ∀ d ∈ (cs.dropWhile q).head?, q d = false := by
  intro d hd
  have := List.head?_dropWhile_not q cs
  rwa [Option.mem_def.1 hd] at this

/-- All characters of a run are of its class. -/
theorem mem_takeWhile (q : Char → Bool) (cs : List Char) : ∀ d ∈ cs.takeWhile q, q d = true :=
  List.all_eq_true.1 List.all_takeWhile

/-- A text without quotes has none in it. -/
theorem ne_quote_of_notMem {cs : List Char} (h : '"' ∉ cs) : ∀ d ∈ cs, (d != '"') = true := by
  intro d hd
  rw [bne_iff_ne]
  rintro rfl
  exact h hd

/-- A symbol is found where what follows does not make it another. -/
theorem Symbol.scan?_append {s : Symbol} {rest : List Char}
    (h : (Lexeme.symbol s).EndsBefore rest) : Symbol.scan? (s.chars ++ rest) = some s := by
  cases s
  case not | gt | lt =>
    cases rest with
    | nil => rfl
    | cons c rest =>
      have hc : ¬ '=' = c := by
        rintro rfl
        exact absurd (h _ rfl) (by decide)
      simp [Symbol.scan?, Symbol.all, Symbol.chars, List.isPrefixOf, hc]
  all_goals rfl

namespace Scan

variable {p : Nat} {c : Char} {cs rest : List Char}

/-- And so it is scanned. -/
theorem lexeme_symbol {s : Symbol} (hrest : (Lexeme.symbol s).EndsBefore rest)
    (h : s.chars ++ rest = c :: cs) : lexeme p c cs = ⟨.ok (.symbol s), s.chars, rest⟩ := by
  have hc : c ∈ s.chars := by
    cases s <;> simp only [Symbol.chars, List.cons_append] at h ⊢ <;>
      obtain ⟨rfl, -⟩ := List.cons.inj h <;> simp
  obtain ⟨hpart, hquote⟩ := isWordPart_of_mem_chars s c hc
  obtain ⟨hstart, hdigit⟩ := isWordStart_of_not_isWordPart hpart
  simp only [lexeme, hquote, hdigit, hstart, if_false, Bool.false_eq_true, symbol, ← h,
    Symbol.scan?_append hrest, List.drop_left]

/-- A word is scanned to its end. -/
theorem lexeme_word {s : String} (hs : IsWord s) (hrest : ∀ d ∈ rest.head?, isWordPart d = false)
    (h : s.toList ++ rest = c :: cs) : lexeme p c cs = ⟨.ok (.ofWord s), s.toList, rest⟩ := by
  have hall := hs.part_of_mem
  obtain ⟨a, as, has, ha, -⟩ := hs
  -- what starts a word is neither a quote nor a digit, so no other branch takes it
  have hc : isWordStart c = true := by
    rw [has] at h
    rwa [← (List.cons.inj h).1]
  have hquote : c ≠ '"' := by
    rintro rfl
    exact absurd hc (by decide)
  obtain ⟨ht, hd⟩ := span_append hall rest hrest
  simp only [lexeme, hquote, isDigit_of_isWordStart hc, hc, if_false, if_true, Bool.false_eq_true,
    ← h, word, ht, hd, String.ofList_toList]

/-- Digits are taken as far as they go, whether they fit or not. -/
theorem lexeme_digits {text : String} (htext : IsDigits text)
    (hrest : ∀ d ∈ rest.head?, d.isDigit = false) (h : text.toList ++ rest = c :: cs) :
    lexeme p c cs = ⟨if (Text.int32OfText? text).isSome then .ok (.integer text)
      else .error (.integerOverflow text p), text.toList, rest⟩ := by
  obtain ⟨hne, hall⟩ := htext
  have hc : c.isDigit = true := by
    obtain ⟨a, as, has⟩ := List.exists_cons_of_ne_nil hne
    rw [has] at h hall
    rw [← (List.cons.inj h).1]
    exact hall a List.mem_cons_self
  have hquote : c ≠ '"' := by
    rintro rfl
    exact absurd hc (by decide)
  obtain ⟨ht, hd⟩ := span_append hall rest hrest
  simp only [lexeme, hquote, hc, if_false, if_true, ← h, integer, ht, hd, String.ofList_toList]

/-- An integer that is spelled well is scanned to its end. -/
theorem lexeme_integer {text : String} (hl : (Lexeme.integer text).WellSpelled)
    (hrest : (Lexeme.integer text).EndsBefore rest) (h : text.toList ++ rest = c :: cs) :
    lexeme p c cs = ⟨.ok (.integer text), text.toList, rest⟩ := by
  rw [lexeme_digits ⟨hl.1, hl.2.1⟩ hrest h, if_pos hl.2.2]

/-- A string that is spelled well is scanned through its closing quote. -/
theorem lexeme_string {text : String} (hl : (Lexeme.string text).WellSpelled)
    (h : (Lexeme.string text).spelling.toList ++ rest = c :: cs) :
    lexeme p c cs = ⟨.ok (.string text), (Lexeme.string text).spelling.toList, rest⟩ := by
  have hspell : (Lexeme.string text).spelling.toList = '"' :: (text.toList ++ ['"']) := by
    simp [Lexeme.spelling]
  rw [hspell, List.cons_append, List.append_assoc] at h
  obtain ⟨rfl, rfl⟩ := List.cons.inj h
  obtain ⟨ht, hd⟩ := span_append (ne_quote_of_notMem hl) ('"' :: rest) (by simp)
  rw [hspell]
  simp only [lexeme, if_true, string, List.cons_append, List.nil_append, ht, hd,
    String.ofList_toList]

/-- **What is spelled is scanned**, and no more than it is taken. -/
theorem lexeme_of_wellSpelled {l : Lexeme} (hl : l.WellSpelled) (hrest : l.EndsBefore rest)
    (h : l.spelling.toList ++ rest = c :: cs) :
    lexeme p c cs = ⟨.ok l, l.spelling.toList, rest⟩ := by
  cases l with
  | symbol s =>
    have hs : (Lexeme.symbol s).spelling.toList = s.chars := String.toList_ofList
    rw [hs] at h ⊢
    exact lexeme_symbol hrest h
  | identifier name =>
    have hword : Lexeme.ofWord name = .identifier name := by
      rw [Lexeme.ofWord, if_neg]
      simpa only [IsTruthWord, Bool.or_eq_true] using hl.2
    rw [lexeme_word hl.1 hrest h, hword]
    rfl
  | boolean text =>
    have hword : Lexeme.ofWord text = .boolean text := by
      rw [Lexeme.ofWord, if_pos]
      simpa only [IsTruthWord, Bool.or_eq_true] using hl.2
    rw [lexeme_word hl.1 hrest h, hword]
    rfl
  | integer text => exact lexeme_integer hl hrest h
  | string text => exact lexeme_string hl h

/-! ## What is scanned is spelled -/

/-- What a scan gives is a lexeme, taken as it is written and as far as it
goes. -/
def Reads (s : Scan) (l : Lexeme) : Prop :=
  l.WellSpelled ∧ s.taken = l.spelling.toList ∧ l.EndsBefore s.rest

/-- A string that was scanned is spelled by its characters. -/
theorem reads_string {l : Lexeme} (h : (string p cs).outcome = .ok l) :
    (string p cs).Reads l := by
  unfold string at h ⊢
  split at h
  · cases h
  next q rest hrest =>
    obtain rfl := Except.ok.inj h
    have hq : q = '"' := by
      have := head?_dropWhile (· != '"') cs q (by rw [hrest]; rfl)
      simpa using this
    refine ⟨?_, ?_, fun d _ => rfl⟩
    · intro hmem
      rw [String.toList_ofList] at hmem
      have := mem_takeWhile (· != '"') cs _ hmem
      simp at this
    · simp [Lexeme.spelling, hq]

/-- And so is an integer. -/
theorem reads_integer {l : Lexeme} (hc : c.isDigit = true)
    (h : (integer p (c :: cs)).outcome = .ok l) : (integer p (c :: cs)).Reads l := by
  simp only [integer] at h ⊢
  split at h
  next hfits =>
    obtain rfl := Except.ok.inj h
    refine ⟨⟨?_, ?_, hfits⟩, String.toList_ofList.symm, head?_dropWhile _ _⟩
    · simp [hc]
    · rw [String.toList_ofList]
      exact mem_takeWhile _ _
  next => cases h

/-- And a word. -/
theorem reads_word {l : Lexeme} (hc : isWordStart c = true)
    (h : (word (c :: cs)).outcome = .ok l) : (word (c :: cs)).Reads l := by
  obtain rfl := Except.ok.inj h
  have hword : IsWord (String.ofList ((c :: cs).takeWhile isWordPart)) := by
    refine ⟨c, cs.takeWhile isWordPart, ?_, hc, mem_takeWhile _ _⟩
    rw [String.toList_ofList, List.takeWhile_cons_of_pos (isWordPart_of_isWordStart hc)]
  unfold Lexeme.ofWord
  split
  next htruth =>
    exact ⟨⟨hword, by simpa only [IsTruthWord, Bool.or_eq_true] using htruth⟩,
      String.toList_ofList.symm, head?_dropWhile _ _⟩
  next htruth =>
    exact ⟨⟨hword, by simpa only [IsTruthWord, Bool.or_eq_true] using htruth⟩,
      String.toList_ofList.symm, head?_dropWhile _ _⟩

/-- And a symbol. -/
theorem reads_symbol {l : Lexeme} (h : (symbol p c cs).outcome = .ok l) :
    (symbol p c cs).Reads l := by
  unfold symbol at h ⊢
  split at h
  next s hs =>
    obtain rfl := Except.ok.inj h
    obtain ⟨rest, hrest⟩ := Symbol.chars_prefix_of_scan? hs
    rw [← hrest]
    refine ⟨trivial, String.toList_ofList.symm, ?_⟩
    rw [List.drop_left]
    intro d hd
    -- one of the symbols that could go on with `=` would have been read with it
    obtain ⟨ds, rfl⟩ : ∃ ds, rest = d :: ds := List.head?_eq_some_iff.1 hd
    rw [← hrest] at hs
    cases s
    case not | gt | lt =>
      cases hd : Lexeme.continuedBy (.symbol _) d with
      | false => rfl
      | true =>
        obtain rfl := beq_iff_eq.1 hd
        cases hs
    all_goals rfl
  next => cases h

/-- **A lexeme that was scanned is spelled** by the characters that were taken. -/
theorem reads_lexeme {l : Lexeme} (h : (lexeme p c cs).outcome = .ok l) :
    (lexeme p c cs).Reads l := by
  unfold lexeme at h ⊢
  split
  next hc =>
    rw [if_pos hc] at h
    exact reads_string h
  next hc =>
    rw [if_neg hc] at h
    split
    next hd =>
      rw [if_pos hd] at h
      exact reads_integer hd h
    next hd =>
      rw [if_neg hd] at h
      split
      next hw =>
        rw [if_pos hw] at h
        exact reads_word hw h
      next hw =>
        rw [if_neg hw] at h
        exact reads_symbol h

/-! ## What is refused -/

/-- **Why no lexeme is read from the characters**, and what a scan takes of
them all the same. -/
inductive Refuses (p : Nat) : List Char → Scan → Prop
  /-- A string literal without a closing quote takes all that is left. -/
  | string {cs : List Char} : '"' ∉ cs →
      Refuses p ('"' :: cs) ⟨.error (.unterminatedString p), '"' :: cs, []⟩
  /-- Digits that are too large a number are taken as far as they go. -/
  | integer {text : String} {rest : List Char} : IsDigits text →
      (∀ d ∈ rest.head?, d.isDigit = false) → Text.int32OfText? text = none →
      Refuses p (text.toList ++ rest) ⟨.error (.integerOverflow text p), text.toList, rest⟩
  /-- A character that nothing starts with is taken alone. -/
  | symbol {c : Char} {cs : List Char} : c ≠ '"' → isWordPart c = false →
      Symbol.scan? (c :: cs) = none →
      Refuses p (c :: cs) ⟨.error (.unexpectedCharacter c p), [c], cs⟩

/-- A string is refused where it has no closing quote. -/
theorem refuses_string {f : Fault} (h : (string p cs).outcome = .error f) :
    Refuses p ('"' :: cs) (string p cs) := by
  unfold string at h ⊢
  split at h
  next hnil =>
    have hall := List.takeWhile_append_dropWhile (p := (· != '"')) (l := cs)
    rw [hnil, List.append_nil] at hall
    have hquote : '"' ∉ cs := by
      rw [← hall]
      intro hmem
      simpa using mem_takeWhile _ _ _ hmem
    rw [hall]
    exact .string hquote
  next => cases h

/-- An integer is refused where it is out of range. -/
theorem refuses_integer {f : Fault} (hc : c.isDigit = true)
    (h : (integer p (c :: cs)).outcome = .error f) :
    Refuses p (c :: cs) (integer p (c :: cs)) := by
  simp only [integer] at h ⊢
  split at h
  next => cases h
  next hbig =>
    rw [if_neg hbig]
    have htext : (String.ofList ((c :: cs).takeWhile Char.isDigit)).toList =
        (c :: cs).takeWhile Char.isDigit := String.toList_ofList
    have hdigits : IsDigits (String.ofList ((c :: cs).takeWhile Char.isDigit)) := by
      rw [IsDigits, htext]
      exact ⟨by simp [hc], mem_takeWhile _ _⟩
    have hrefuses := Refuses.integer (p := p) hdigits (head?_dropWhile Char.isDigit (c :: cs))
      (by simpa using hbig)
    rwa [htext, List.takeWhile_append_dropWhile] at hrefuses

/-- A symbol is refused where none stands in front. -/
theorem refuses_symbol {f : Fault} (hquote : c ≠ '"') (hpart : isWordPart c = false)
    (h : (symbol p c cs).outcome = .error f) : Refuses p (c :: cs) (symbol p c cs) := by
  unfold symbol at h ⊢
  split at h
  next => cases h
  next hsymbol => exact .symbol hquote hpart hsymbol

/-- A scan that fails has a reason. -/
theorem refuses_lexeme {f : Fault} (h : (lexeme p c cs).outcome = .error f) :
    Refuses p (c :: cs) (lexeme p c cs) := by
  unfold lexeme at h ⊢
  split
  next hc =>
    rw [if_pos hc] at h
    subst hc
    exact refuses_string h
  next hc =>
    rw [if_neg hc] at h
    split
    next hd =>
      rw [if_pos hd] at h
      exact refuses_integer hd h
    next hd =>
      rw [if_neg hd] at h
      split
      next hw =>
        -- a word is never refused
        rw [if_pos hw] at h
        cases h
      next hw =>
        rw [if_neg hw] at h
        rw [Bool.not_eq_true] at hw hd
        exact refuses_symbol hc (isWordPart_eq_false hw hd) h

/-- And where there is one, the scan fails for it. -/
theorem Refuses.lexeme_eq {s : Scan} (h : Refuses p (c :: cs) s) : lexeme p c cs = s := by
  generalize hall : c :: cs = all at h
  cases h with
  | @string ds hquote =>
    obtain ⟨rfl, rfl⟩ := List.cons.inj hall
    obtain ⟨ht, hd⟩ := span_append (ne_quote_of_notMem hquote) [] (by simp)
    rw [List.append_nil] at ht hd
    simp only [lexeme, if_true, Scan.string, ht, hd]
  | integer hdigits hrest hbig =>
    rw [lexeme_digits hdigits hrest hall.symm, hbig]
    rfl
  | symbol hquote hpart hsymbol =>
    obtain ⟨rfl, rfl⟩ := List.cons.inj hall
    obtain ⟨hstart, hdigit⟩ := isWordStart_of_not_isWordPart hpart
    simp only [lexeme, hquote, hdigit, hstart, if_false, Bool.false_eq_true, Scan.symbol, hsymbol]

/-- What is wrong is said of the first character. -/
theorem offset?_of_lexeme {f : Fault} (h : (lexeme p c cs).outcome = .error f) :
    f.offset? = some p := by
  have hrefuses := refuses_lexeme h
  generalize lexeme p c cs = s at h hrefuses
  generalize c :: cs = all at hrefuses
  cases hrefuses <;> cases h <;> rfl

/-- What keeps a lexeme from being read is a lexical fault. -/
theorem stage_of_lexeme {f : Fault} (h : (lexeme p c cs).outcome = .error f) :
    f.stage = .lexical := by
  have hrefuses := refuses_lexeme h
  generalize lexeme p c cs = s at h hrefuses
  generalize c :: cs = all at hrefuses
  cases hrefuses <;> cases h <;> rfl

end Scan

/-! ## Walking through a source -/

/-- A lexeme takes at least one character, and starts with no blank. -/
theorem Lexeme.WellSpelled.exists_cons {l : Lexeme} (hl : l.WellSpelled) :
    ∃ c cs, l.spelling.toList = c :: cs ∧ isBlank c = false := by
  have hpart : ∀ c, isWordPart c = true → isBlank c = false := by
    intro c hc
    refine Bool.eq_false_iff.2 fun hb => ?_
    rw [(isWordPart_of_isBlank hb).1] at hc
    cases hc
  cases l with
  | symbol s => cases s <;> exact ⟨_, _, String.toList_ofList, by decide⟩
  | identifier name =>
    obtain ⟨⟨c, cs, hcs, hc, -⟩, -⟩ := hl
    exact ⟨c, cs, hcs, hpart c (isWordPart_of_isWordStart hc)⟩
  | boolean text =>
    obtain ⟨⟨c, cs, hcs, hc, -⟩, -⟩ := hl
    exact ⟨c, cs, hcs, hpart c (isWordPart_of_isWordStart hc)⟩
  | integer text =>
    obtain ⟨hne, hall, -⟩ := hl
    obtain ⟨c, cs, hcs⟩ := List.exists_cons_of_ne_nil hne
    exact ⟨c, cs, hcs, hpart c (by simp [isWordPart, Char.isAlphanum, hall c, hcs])⟩
  | string text => exact ⟨'"', text.toList ++ ['"'], by simp [spelling], by decide⟩

namespace Cursor

variable {bs cs rest : List Char} {l : Lexeme} {ls : List Lexeme} {p : Nat}

/-- Before nothing but blanks the input ends. -/
theorem next_blanks (hbs : ∀ b ∈ bs, isBlank b = true) :
    next ⟨bs, p⟩ = (.ok ⟨none, p + bs.length⟩, ⟨[], p + bs.length⟩) := by
  obtain ⟨ht, hd⟩ := span_append hbs [] (by simp)
  rw [List.append_nil] at ht hd
  simp only [next, skipBlanks, ht, hd]

/-- **A step reads the lexeme that comes next**, after blanks. -/
theorem next_lexeme (hbs : ∀ b ∈ bs, isBlank b = true) (hl : l.WellSpelled)
    (hrest : l.EndsBefore rest) :
    next ⟨bs ++ (l.spelling.toList ++ rest), p⟩ =
      (.ok ⟨some l, p + bs.length⟩, ⟨rest, p + bs.length + l.spelling.toList.length⟩) := by
  obtain ⟨c, cs, hcs, hc⟩ := hl.exists_cons
  have hscan := Scan.lexeme_of_wellSpelled (p := p + bs.length) hl hrest
    (show l.spelling.toList ++ rest = c :: (cs ++ rest) by rw [hcs]; rfl)
  obtain ⟨ht, hd⟩ := span_append hbs (l.spelling.toList ++ rest)
    (by rw [hcs]; simp [hc])
  rw [hcs, List.cons_append] at ht hd
  rw [hcs] at hscan
  simp only [next, skipBlanks, hcs, List.cons_append, ht, hd, hscan, Except.map]

/-- **A source that spells lexemes is cut into them.** -/
theorem collect_of_spells (h : Spells cs ls) {n : Nat} (hn : ls.length < n)
    (read : List (Located Lexeme)) (p : Nat) :
    ∃ ts : List (Located Lexeme), ts.map (·.val) = ls ∧
      collect n read ⟨cs, p⟩ = .ok ⟨read.reverse ++ ts, p + cs.length⟩ := by
  induction h generalizing n read p with
  | blanks hbs =>
    obtain ⟨n, rfl⟩ : ∃ m, n = m + 1 := ⟨n - 1, by omega⟩
    refine ⟨[], rfl, ?_⟩
    rw [collect, next_blanks hbs]
    simp
  | @lexeme bs rest l ls hbs hl hrest _ ih =>
    -- one step for this lexeme, and more than there are lexemes for the others
    obtain ⟨n, rfl⟩ : ∃ m, n = m + 1 := ⟨n - 1, by omega⟩
    rw [List.length_cons] at hn
    obtain ⟨ts, hts, hc⟩ := ih (n := n) (by omega) (⟨l, p + bs.length⟩ :: read)
      (p + bs.length + l.spelling.toList.length)
    refine ⟨⟨l, p + bs.length⟩ :: ts, by simp [hts], ?_⟩
    rw [collect, next_lexeme hbs hl hrest]
    simp only [hc, List.reverse_cons, List.append_assoc, List.singleton_append, List.length_append]
    simp only [Nat.add_assoc]

/-! ## The other way -/

/-- And where the input ends nothing but blanks is left. -/
theorem blanks_of_next {k k' : Cursor} {q : Nat} (h : k.next = (.ok ⟨none, q⟩, k')) :
    ∀ b ∈ k.rest, isBlank b = true := by
  simp only [next] at h
  split at h
  next hnil =>
    have hsplit := List.takeWhile_append_dropWhile (p := isBlank) (l := k.rest)
    rw [show k.rest.dropWhile isBlank = [] from hnil, List.append_nil] at hsplit
    rw [← hsplit]
    exact mem_takeWhile _ _
  next c cs _ =>
    cases ho : (Scan.lexeme k.skipBlanks.offset c cs).outcome with
    | error f => simp [ho, Except.map] at h
    | ok l => simp [ho, Except.map] at h

/-- Where a token is found, blanks and its spelling are what was passed. -/
theorem spells_of_next {k k' : Cursor} {q : Nat} (h : k.next = (.ok ⟨some l, q⟩, k')) :
    ∃ bs, k.rest = bs ++ (l.spelling.toList ++ k'.rest) ∧ (∀ b ∈ bs, isBlank b = true) ∧
      l.WellSpelled ∧ l.EndsBefore k'.rest := by
  simp only [next] at h
  split at h
  next => simp at h
  next c cs hcs =>
    cases ho : (Scan.lexeme k.skipBlanks.offset c cs).outcome with
    | error f => simp [ho, Except.map] at h
    | ok l' =>
      obtain ⟨hl, htaken, hrest⟩ := Scan.reads_lexeme ho
      have happend := Scan.lexeme_append k.skipBlanks.offset c cs
      simp only [ho, Except.map, Prod.mk.injEq, Except.ok.injEq, Located.mk.injEq,
        Option.some.injEq] at h
      obtain ⟨⟨rfl, rfl⟩, rfl⟩ := h
      refine ⟨k.rest.takeWhile isBlank, ?_, mem_takeWhile _ _, hl, hrest⟩
      rw [← htaken, happend, ← hcs]
      exact List.takeWhile_append_dropWhile.symm

/-- **A source that is cut into lexemes spells them**, if there is a step for
each character and one for the end. -/
theorem spells_of_collect {n : Nat} {k : Cursor} {read : List (Located Lexeme)} {s : Stream}
    (hn : k.rest.length < n) (h : k.collect n read = .ok s) :
    ∃ ts, s.lexemes = read.reverse ++ ts ∧ Spells k.rest (ts.map (·.val)) := by
  induction n generalizing k read with
  | zero => omega
  | succ n ih =>
    rw [collect] at h
    split at h
    next => cases h
    next q k' hnext =>
      obtain rfl := Except.ok.inj h
      exact ⟨[], by simp, .blanks (blanks_of_next hnext)⟩
    next l q k' hnext =>
      obtain ⟨bs, hrest, hbs, hl, hends⟩ := spells_of_next hnext
      obtain ⟨c, cs, hcs, -⟩ := hl.exists_cons
      -- a step takes a character at least, so there are steps enough for the rest
      have hlen : k'.rest.length < n := by
        rw [hrest, hcs] at hn
        simp only [List.length_append, List.length_cons] at hn
        omega
      obtain ⟨ts, hts, hspells⟩ := ih hlen h
      refine ⟨⟨l, q⟩ :: ts, by simp [hts], ?_⟩
      rw [hrest]
      exact .lexeme hbs hl hends hspells

/-- A fault of a token is one of the lexical stage. -/
theorem stage_of_next {k : Cursor} {f : Fault} (h : k.next.1 = .error f) : f.stage = .lexical := by
  simp only [next] at h
  split at h
  next => cases h
  next c cs _ =>
    cases ho : (Scan.lexeme k.skipBlanks.offset c cs).outcome with
    | error g =>
      rw [ho] at h
      obtain rfl := Except.error.inj h
      exact Scan.stage_of_lexeme ho
    | ok l =>
      rw [ho] at h
      cases h

/-- And so is one of all tokens. -/
theorem stage_of_collect {n : Nat} {k : Cursor} {read : List (Located Lexeme)} {f : Fault}
    (h : k.collect n read = .error f) : f.stage = .lexical := by
  induction n generalizing k read with
  | zero => cases h
  | succ n ih =>
    rw [collect] at h
    split at h
    next g k' hnext =>
      obtain rfl := Except.error.inj h
      exact stage_of_next (congrArg Prod.fst hnext)
    next => cases h
    next => exact ih h

end Cursor

/-- **A source that is not cut into lexemes has a lexical fault.** -/
theorem Stream.stage_of_ofSource {source : String} {f : Fault}
    (h : Stream.ofSource source = .error f) : f.stage = .lexical := Cursor.stage_of_collect h

/-- There are no more lexemes than characters. -/
theorem Spells.length_le {cs : List Char} {ls : List Lexeme} (h : Spells cs ls) :
    ls.length ≤ cs.length := by
  induction h with
  | blanks _ => simp
  | lexeme _ hl _ _ ih =>
    obtain ⟨c, cs, hcs, -⟩ := hl.exists_cons
    simp only [hcs, List.length_append, List.length_cons]
    omega

/-- **The lexemes of a source are the ones that it spells.** -/
theorem Stream.ofSource_iff_spells {source : String} {ls : List Lexeme} :
    (∃ s, Stream.ofSource source = .ok s ∧ s.lexemes.map (·.val) = ls) ↔
      Spells source.toList ls := by
  constructor
  · rintro ⟨s, hs, rfl⟩
    obtain ⟨ts, hts, hspells⟩ := Cursor.spells_of_collect
      (by rw [Cursor.start, String.length_toList]; exact Nat.lt_succ_self _) hs
    rw [List.reverse_nil, List.nil_append] at hts
    rwa [hts]
  · intro h
    have hn : ls.length < source.length + 1 := by
      have := h.length_le
      rw [String.length_toList] at this
      omega
    obtain ⟨ts, hts, hc⟩ := Cursor.collect_of_spells h hn [] 0
    exact ⟨_, hc, hts⟩

end Enablement
