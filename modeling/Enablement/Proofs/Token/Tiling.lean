import Enablement.Proofs.Token.Spelling

/-!
# Tokens — the run of steps over a source

Each step of a cursor skips blanks and takes a span of the source, of which it
makes a lexeme or a fault; at the end it takes nothing, however often it is
asked. So the spans of a run lie apart, and what lies outside them is blank
(`Tiles`). A run goes on after a fault; the stream of a source is what the run
gives up to its end, unless a fault comes first.
-/

namespace Enablement

/-- A stretch of a source that one step takes, and what the step makes of it. -/
structure Span (cs : List Char) where
  /-- Its first character. -/
  start : Nat
  /-- The character after its last. -/
  stop : Nat
  /-- The lexeme, or what is wrong. -/
  outcome : Except Fault Lexeme
  start_lt_stop : start < stop
  stop_le : stop ≤ cs.length
  /-- A lexeme is written there, and nothing else. -/
  spelled : ∀ l, outcome = .ok l → cs.extract start stop = l.spelling.toList
  /-- A fault is found where the span starts. -/
  placed : ∀ f, outcome = .error f → f.offset? = some start

/-- What the step gives. -/
def Span.report {cs : List Char} (s : Span cs) : Except Fault Token :=
  s.outcome.map fun l => ⟨some l, s.start⟩

/-- A span that ends in a fault reports it. -/
theorem Span.report_of_error {cs : List Char} {s : Span cs} {f : Fault}
    (h : s.outcome = .error f) : s.report = .error f := by
  rw [report, h]
  rfl

/-- A span with a lexeme reports a token at its start. -/
theorem Span.report_of_ok {cs : List Char} {s : Span cs} {l : Lexeme} (h : s.outcome = .ok l) :
    s.report = .ok ⟨some l, s.start⟩ := by
  rw [report, h]
  rfl

/-- From `a` on, the characters before `b` are blanks. -/
def BlankBetween (cs : List Char) (a b : Nat) : Prop :=
  ∀ i c, a ≤ i → i < b → cs[i]? = some c → isBlank c = true

/-- The blanks are five characters. -/
theorem isBlank_iff_mem {c : Char} :
    isBlank c = true ↔ c ∈ [' ', '\t', '\n', '\x0c', '\r'] := by
  simp [isBlank, or_assoc]

/-- A stretch of blanks, with what lies before and after it. -/
theorem blankBetween_append (pre : List Char) {bs : List Char} (post : List Char)
    (hbs : ∀ b ∈ bs, isBlank b = true) :
    BlankBetween (pre ++ (bs ++ post)) pre.length (pre.length + bs.length) := by
  intro i c hpre hbs' hc
  rw [List.getElem?_append_right hpre, List.getElem?_append_left (by omega)] at hc
  exact hbs c (List.mem_of_getElem? hc)

/-- The span that a scan takes of a source, behind the characters `pre`. -/
def Span.ofScan (pre : List Char) (c : Char) (cs : List Char) : Span (pre ++ c :: cs) where
  start := pre.length
  stop := pre.length + (Scan.lexeme pre.length c cs).taken.length
  outcome := (Scan.lexeme pre.length c cs).outcome
  start_lt_stop :=
    Nat.lt_add_of_pos_right (List.length_pos_iff.2 (Scan.taken_lexeme_ne_nil pre.length c cs))
  stop_le := by
    rw [← Scan.lexeme_append pre.length c cs, List.length_append, List.length_append]
    omega
  spelled l hl := by
    have hreads : Scan.Reads (Scan.lexeme pre.length c cs) l := Scan.reads_lexeme hl
    rw [← hreads.2.1, ← Scan.lexeme_append pre.length c cs]
    simp
  placed _ hf := Scan.offset?_of_lexeme hf

/-! Outcomes in a row are all there, or the first fault among them. -/

/-- Reports that start with a fault come to it. -/
theorem mapM_id_error {α : Type} (f : Fault) (xs : List (Except Fault α)) :
    (.error f :: xs).mapM id = .error f := by
  rw [List.mapM_cons]
  rfl

/-- Reports that start with a token come to it and the others. -/
theorem mapM_id_ok {α : Type} (x : α) (xs : List (Except Fault α)) :
    (.ok x :: xs).mapM id = (xs.mapM id).map (x :: ·) := by
  rw [List.mapM_cons]
  rfl

/-- No lexeme ends the input. -/
theorem Lexeme.kind_ne_endOfInput (l : Lexeme) : l.kind ≠ .endOfInput := by
  cases l <;> exact Kind.noConfusion

/-- A stream ends where its source does. -/
theorem Stream.stop_of_ofSource {source : String} {s : Stream} (h : ofSource source = .ok s) :
    s.stop = source.length := by
  have hspells := ofSource_iff_spells.1 ⟨s, h, rfl⟩
  have hlength := hspells.length_le
  rw [String.length_toList] at hlength
  obtain ⟨ts, -, hc⟩ := Cursor.collect_of_spells hspells (Nat.lt_succ_of_le hlength) [] 0
  rw [ofSource, Cursor.start, hc] at h
  obtain rfl := Except.ok.inj h
  rw [Nat.zero_add, String.length_toList]

namespace Cursor

variable {cs pre : List Char} {k : Cursor}

/-- The cursor after `n` steps. -/
def after : Nat → Cursor → Cursor
  | 0, k => k
  | n + 1, k => after n k.next.2

/-! ## One step -/

/-- The cursor stands in the source, behind the characters `pre`. -/
structure Behind (cs pre : List Char) (k : Cursor) : Prop where
  split : cs = pre ++ k.rest
  offset : k.offset = pre.length

/-- At the start nothing lies behind the cursor. -/
theorem behind_start (source : String) : (start source).Behind source.toList [] := ⟨rfl, rfl⟩

/-- Behind a lexeme lies what lay before it and the lexeme. -/
theorem behind_scan (pre : List Char) (c : Char) (cs : List Char) :
    (⟨(Scan.lexeme pre.length c cs).rest,
      pre.length + (Scan.lexeme pre.length c cs).taken.length⟩ : Cursor).Behind (pre ++ c :: cs)
      (pre ++ (Scan.lexeme pre.length c cs).taken) :=
  ⟨by rw [List.append_assoc, Scan.lexeme_append], List.length_append.symm⟩

/-- What lies behind the cursor and what is left are all characters. -/
theorem Behind.offset_add_length (h : k.Behind cs pre) :
    k.offset + k.rest.length = cs.length := by
  rw [h.split, List.length_append, h.offset]

/-- What is not read yet is all that lies behind the offset. -/
theorem Behind.eq_drop (h : k.Behind cs pre) : k = ⟨cs.drop k.offset, k.offset⟩ := by
  obtain ⟨rest, offset⟩ := k
  obtain ⟨rfl, rfl⟩ := h
  rw [List.drop_left]

/-- **All that a step can do**: find the end behind blanks, or read what comes
behind them. -/
theorem Behind.next_cases (h : k.Behind cs pre) :
    (k.next = (.ok ⟨none, cs.length⟩, ⟨[], cs.length⟩) ∧ BlankBetween cs k.offset cs.length) ∨
    ∃ bs c rest, k.rest = bs ++ c :: rest ∧ (∀ b ∈ bs, isBlank b = true) ∧ isBlank c = false ∧
      cs = pre ++ bs ++ c :: rest ∧ BlankBetween cs k.offset (pre ++ bs).length ∧
      k.next = ((Scan.lexeme (pre ++ bs).length c rest).outcome.map
          fun l => ⟨some l, (pre ++ bs).length⟩,
        ⟨(Scan.lexeme (pre ++ bs).length c rest).rest,
          (pre ++ bs).length + (Scan.lexeme (pre ++ bs).length c rest).taken.length⟩) := by
  have hend := h.offset_add_length
  obtain ⟨hsplit, hoffset⟩ := h
  have hrest := List.takeWhile_append_dropWhile (p := isBlank) (l := k.rest)
  have hblanks := mem_takeWhile isBlank k.rest
  -- what is left behind the blanks is nothing, or starts with the character that is read
  cases hdrop : k.rest.dropWhile isBlank with
  | nil =>
    rw [hdrop, List.append_nil] at hrest
    rw [hrest] at hblanks
    have hbetween := blankBetween_append pre [] hblanks
    rw [List.append_nil, ← hsplit, ← hoffset, hend] at hbetween
    refine .inl ⟨?_, hbetween⟩
    rw [← hend]
    exact next_blanks hblanks
  | cons c rest =>
    have hc : isBlank c = false := head?_dropWhile isBlank k.rest c (by rw [hdrop]; rfl)
    rw [hdrop] at hrest
    have hcs : cs = pre ++ k.rest.takeWhile isBlank ++ c :: rest := by
      rw [List.append_assoc, hrest, hsplit]
    have hbetween := blankBetween_append pre (c :: rest) hblanks
    rw [← List.append_assoc, ← hcs, ← List.length_append, ← hoffset] at hbetween
    refine .inr ⟨_, c, rest, hrest.symm, hblanks, hc, hcs, hbetween, ?_⟩
    simp only [next, skipBlanks, hdrop, hoffset, List.length_append]

/-- A step takes a span of the source, or finds the end. -/
theorem Behind.next (h : k.Behind cs pre) :
    (k.next = (.ok ⟨none, cs.length⟩, ⟨[], cs.length⟩) ∧ BlankBetween cs k.offset cs.length) ∨
    ∃ s : Span cs, k.next.1 = s.report ∧ k.next.2 = ⟨cs.drop s.stop, s.stop⟩ ∧
      k.offset ≤ s.start ∧ BlankBetween cs k.offset s.start ∧
      ∃ pre', k.next.2.Behind cs pre' := by
  obtain hend | ⟨bs, c, rest, -, -, -, rfl, hblanks, hnext⟩ := h.next_cases
  · exact .inl hend
  · have hbehind := behind_scan (pre ++ bs) c rest
    have hstart : k.offset ≤ (pre ++ bs).length := by
      rw [h.offset, List.length_append]
      exact Nat.le_add_right _ _
    rw [hnext]
    exact .inr ⟨.ofScan (pre ++ bs) c rest, rfl, hbehind.eq_drop, hstart, hblanks, _, hbehind⟩

/-! ## The run -/

/-- **A run over a source**: the spans that steps take one after another, up to
the end. -/
inductive Tiles (cs : List Char) : Cursor → List (Span cs) → Prop
  /-- Behind the last span there are blanks, and the end. -/
  | stop {k : Cursor} : k.offset ≤ cs.length → BlankBetween cs k.offset cs.length →
      k.next = (.ok ⟨none, cs.length⟩, ⟨[], cs.length⟩) → Tiles cs k []
  /-- Blanks, a span, and what follows it. -/
  | step {k : Cursor} {s : Span cs} {spans : List (Span cs)} : k.offset ≤ s.start →
      BlankBetween cs k.offset s.start → k.next.1 = s.report →
      k.next.2 = ⟨cs.drop s.stop, s.stop⟩ → Tiles cs k.next.2 spans → Tiles cs k (s :: spans)

/-- **Every run tiles its source**: each step leaves less of it. -/
theorem Behind.exists_tiles (h : k.Behind cs pre) : ∃ spans, Tiles cs k spans := by
  induction hn : k.rest.length using Nat.strongRecOn generalizing k pre with
  | _ n ih =>
    have hlength := h.offset_add_length
    obtain ⟨hnext, hblanks⟩ | ⟨s, hreport, hstop, hstart, hblanks, _, hbehind⟩ := h.next
    · exact ⟨[], .stop (by omega) hblanks hnext⟩
    · -- a span is not empty, so less is left behind it
      have hless : k.next.2.rest.length < n := by
        have := s.start_lt_stop
        have := s.stop_le
        rw [hstop, List.length_drop]
        omega
      obtain ⟨spans, htiles⟩ := ih _ hless hbehind rfl
      exact ⟨s :: spans, .step hstart hblanks hreport hstop htiles⟩

/-- At the end every step finds the end. -/
theorem steps_end (n m : Nat) : steps m ⟨[], n⟩ = List.replicate m (.ok ⟨none, n⟩) := by
  induction m with
  | zero => rfl
  | succ m ih => exact congrArg (Except.ok ⟨none, n⟩ :: ·) ih

namespace Tiles

variable {spans : List (Span cs)}

/-- A step for each span, and then the end again and again. -/
theorem steps (h : Tiles cs k spans) (m : Nat) :
    k.steps (spans.length + m) =
      spans.map Span.report ++ List.replicate m (.ok ⟨none, cs.length⟩) := by
  induction h with
  | stop _ _ hnext =>
    cases m with
    | zero => rfl
    | succ m =>
      rw [List.length_nil, Nat.zero_add, Cursor.steps, hnext, steps_end]
      rfl
  | @step k s spans _ _ hreport _ _ ih =>
    rw [List.length_cons, Nat.add_right_comm, Cursor.steps, hreport, ih]
    rfl

/-- A step leaves what lies behind its span. -/
theorem after_succ (h : Tiles cs k spans) (i : Nat) (hi : i < spans.length) :
    k.after (i + 1) = ⟨cs.drop spans[i].stop, spans[i].stop⟩ := by
  induction h generalizing i with
  | stop => exact absurd hi (Nat.not_lt_zero i)
  | step _ _ _ hstop _ ih =>
    cases i with
    | zero => exact hstop
    | succ i => exact ih i (Nat.lt_of_succ_lt_succ hi)

/-- No span starts before the cursor from which the spans are taken. -/
theorem offset_le_start (h : Tiles cs k spans) : ∀ s ∈ spans, k.offset ≤ s.start := by
  induction h with
  | stop => simp
  | @step k s spans hstart _ _ hstop _ ih =>
    refine List.forall_mem_cons.2 ⟨hstart, fun t ht => ?_⟩
    have hbehind : s.stop ≤ t.start := by simpa only [hstop] using ih t ht
    have := s.start_lt_stop
    omega

/-- The spans lie one behind another. -/
theorem pairwise (h : Tiles cs k spans) : spans.Pairwise fun s t => s.stop ≤ t.start := by
  induction h with
  | stop => exact .nil
  | step _ _ _ hstop htiles ih =>
    exact .cons (fun t ht => by simpa only [hstop] using htiles.offset_le_start t ht) ih

/-- There are no more spans than characters. -/
theorem offset_add_length_le (h : Tiles cs k spans) : k.offset + spans.length ≤ cs.length := by
  induction h with
  | stop hle => exact hle
  | @step k s spans hstart _ _ hstop _ ih =>
    have := s.start_lt_stop
    simp only [hstop] at ih
    rw [List.length_cons]
    omega

/-- **What lies outside the spans is blank.** -/
theorem isBlank_outside (h : Tiles cs k spans) {i : Nat} {c : Char} (hi : k.offset ≤ i)
    (hc : cs[i]? = some c) (hout : ∀ s ∈ spans, i < s.start ∨ s.stop ≤ i) : isBlank c = true := by
  induction h with
  | stop _ hblanks _ => exact hblanks i c hi (List.getElem?_eq_some_iff.1 hc).1 hc
  | step _ hblanks _ hstop _ ih =>
    obtain ⟨hs, hspans⟩ := List.forall_mem_cons.1 hout
    obtain hbefore | hbehind := hs
    · exact hblanks i c hi hbefore hc
    · exact ih (by rwa [hstop]) hspans

/-! ## The stream of a run -/

/-- **A stream is what the run gives**, up to the end or to the first fault. -/
theorem collect (h : Tiles cs k spans) {n : Nat} (hn : spans.length < n)
    (read : List (Located Lexeme)) :
    (k.collect n read).map Stream.toTokens =
      ((k.steps (spans.length + 1)).mapM id).map fun ts : List Token =>
        read.reverse.map (fun l => ⟨some l.val, l.offset⟩) ++ ts := by
  rw [h.steps]
  induction h generalizing n read with
  | stop _ _ hnext =>
    obtain ⟨n, rfl⟩ : ∃ m, n = m + 1 := ⟨n - 1, by omega⟩
    rw [Cursor.collect, hnext]
    rfl
  | @step k s spans _ _ hreport _ _ ih =>
    obtain ⟨n, rfl⟩ : ∃ m, n = m + 1 := ⟨n - 1, by omega⟩
    rw [List.length_cons, Nat.add_lt_add_iff_right] at hn
    have hnext : k.next = (s.report, k.next.2) := by rw [← hreport]
    rw [Cursor.collect, hnext]
    -- a fault ends both sides; a lexeme comes before what the rest of the run gives
    cases houtcome : s.outcome with
    | error f =>
      rw [List.map_cons, List.cons_append, Span.report_of_error houtcome, mapM_id_error]
      rfl
    | ok l =>
      rw [List.map_cons, List.cons_append, Span.report_of_ok houtcome, mapM_id_ok]
      show (k.next.2.collect n (⟨l, s.start⟩ :: read)).map Stream.toTokens = _
      rw [ih hn]
      generalize List.mapM id (spans.map Span.report ++ _) = outcome
      cases outcome with
      | error f => rfl
      | ok ts => simp [Except.map]

end Tiles

/-- The tokens of a run without faults start where its spans do, and the last of
them where it ends. -/
theorem map_offset_of_report {spans : List (Span cs)} {n : Nat} {ts : List Token}
    (h : (spans.map Span.report ++ [(.ok ⟨none, n⟩ : Except Fault Token)]).mapM id = .ok ts) :
    ts.map (·.offset) = spans.map (·.start) ++ [n] := by
  induction spans generalizing ts with
  | nil =>
    obtain rfl := Except.ok.inj h
    rfl
  | cons s spans ih =>
    rw [List.map_cons, List.cons_append] at h
    cases houtcome : s.outcome with
    | error f =>
      rw [Span.report_of_error houtcome, mapM_id_error] at h
      cases h
    | ok l =>
      rw [Span.report_of_ok houtcome, mapM_id_ok] at h
      generalize hrest : List.mapM id (spans.map Span.report ++ _) = outcome at h
      cases outcome with
      | error f => cases h
      | ok us =>
        obtain rfl := Except.ok.inj h
        rw [List.map_cons, ih hrest]
        rfl

/-- **The tokens of a source start one behind another.** -/
theorem pairwise_offset {source : String} {s : Stream} (h : Stream.ofSource source = .ok s) :
    s.toTokens.Pairwise fun t u => t.offset < u.offset := by
  obtain ⟨spans, htiles⟩ := (behind_start source).exists_tiles
  have hspans : spans.length < source.length + 1 := by
    have := htiles.offset_add_length_le
    rw [String.length_toList] at this
    omega
  have hrun := htiles.collect hspans []
  rw [show (start source).collect (source.length + 1) [] = .ok s from h, htiles.steps] at hrun
  have hoffsets : s.toTokens.map (·.offset) = spans.map (·.start) ++ [source.toList.length] := by
    generalize hts : List.mapM id (spans.map Span.report ++ _) = outcome at hrun
    cases outcome with
    | error f => cases hrun
    | ok ts =>
      obtain rfl := Except.ok.inj hrun
      exact map_offset_of_report hts
  -- the offsets are those of the spans and of the end, and the spans lie one behind another
  suffices hsorted : (s.toTokens.map (·.offset)).Pairwise (· < ·) from List.pairwise_map.1 hsorted
  rw [hoffsets, List.pairwise_append]
  refine ⟨?_, List.pairwise_singleton _ _, ?_⟩
  · refine List.pairwise_map.2 (htiles.pairwise.imp fun {s t} hst => ?_)
    exact Nat.lt_of_lt_of_le s.start_lt_stop hst
  · intro a ha b hb
    obtain ⟨t, -, rfl⟩ := List.mem_map.1 ha
    obtain rfl := List.mem_singleton.1 hb
    exact Nat.lt_of_lt_of_le t.start_lt_stop t.stop_le

/-- **The spans that a run takes tile its source.** There are no more of them
than characters; the steps give them in order, each leaves what lies behind its
span, and every step after the last span gives the end of input, at the end of
the source. The spans lie one behind another, and only blanks lie outside them.
The stream of the source is made of what the steps up to the first end of input
give: all of it, if there is no fault, and otherwise the first fault. -/
theorem steps_tile (source : String) :
    ∃ spans : List (Span source.toList),
      spans.length ≤ source.length ∧
      (∀ m, (start source).steps (spans.length + m) =
        spans.map Span.report ++ List.replicate m (.ok ⟨none, source.length⟩)) ∧
      (∀ (i : Nat) (hi : i < spans.length),
        (start source).after (i + 1) = ⟨source.toList.drop spans[i].stop, spans[i].stop⟩) ∧
      spans.Pairwise (fun s t => s.stop ≤ t.start) ∧
      (∀ (i : Nat) (c : Char), source.toList[i]? = some c →
        (∀ s ∈ spans, i < s.start ∨ s.stop ≤ i) → c ∈ [' ', '\t', '\n', '\x0c', '\r']) ∧
      (Stream.ofSource source).map Stream.toTokens =
        ((start source).steps (spans.length + 1)).mapM id ∧
      ∀ s, Stream.ofSource source = .ok s →
        ∃ ts, s.toTokens = ts ++ [⟨none, source.length⟩] ∧ ∀ t ∈ ts, t.kind ≠ .endOfInput := by
  obtain ⟨spans, htiles⟩ := (behind_start source).exists_tiles
  have hlength : source.toList.length = source.length := source.length_toList
  have hspans : spans.length ≤ source.length := by
    have := htiles.offset_add_length_le
    omega
  refine ⟨spans, hspans, fun m => hlength ▸ htiles.steps m, htiles.after_succ, htiles.pairwise,
    fun i c hc hout => isBlank_iff_mem.1 (htiles.isBlank_outside (Nat.zero_le i) hc hout), ?_, ?_⟩
  -- the stream takes one step more than there are spans, and both stop at the first fault
  · rw [Stream.ofSource, htiles.collect (Nat.lt_succ_of_le hspans)]
    cases ((start source).steps (spans.length + 1)).mapM id <;> rfl
  · intro s hs
    refine ⟨_, by rw [Stream.toTokens, Stream.stop_of_ofSource hs], fun t ht => ?_⟩
    obtain ⟨l, -, rfl⟩ := List.mem_map.1 ht
    rw [Token.kind, Option.elim_some]
    exact l.val.kind_ne_endOfInput

example : (start "2147483648 &x").steps 4 =
    [.error (.integerOverflow "2147483648" 0), .error (.unexpectedCharacter '&' 11),
      .ok ⟨some (.identifier "x"), 12⟩, .ok ⟨none, 13⟩] := rfl

end Cursor
end Enablement
