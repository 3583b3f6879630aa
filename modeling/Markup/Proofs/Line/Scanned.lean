import Markup.Line.Source
import Markup.Proofs.Token

/-!
# The lines of a source have a form

A line that is cut from a source is a lone closer, or it has tokens that are no braces, with or
without an opener behind them.  So the two tests for braces, which look at all tokens of a line,
look at its last token or at its only one:

* `Scan.Sound`             what holds of a scan after every character (`Scan.Sound.step`);
* `Line.isScanned_of_mem`    the form of every line of a source;
* `Line.IsScanned.opens_eq`, `Line.IsScanned.closes_eq`    the tests for braces.
-/

namespace Markup

/-! ## the form of a line -/

/-- the form of a line whose tokens, braces apart, all have a property -/
inductive Line.IsMadeOf (P : String → Prop) (line : Line) : Prop
  | closer (h : line.tokens = [blockClose])
  | plain (hne : line.tokens ≠ []) (h : ∀ t ∈ line.tokens, P t)
  | opener (ts : List String) (h : ∀ t ∈ ts, P t) (hts : line.tokens = ts ++ [blockOpen])

/-- the form of a line of a source -/
def Line.IsScanned (line : Line) : Prop := line.IsMadeOf IsTextToken

theorem Line.IsMadeOf.mono {P Q : String → Prop} {line : Line} (h : line.IsMadeOf P)
    (hPQ : ∀ t, P t → Q t) : line.IsMadeOf Q := by
  cases h with
  | closer h => exact .closer h
  | plain hne h => exact .plain hne fun t ht => hPQ t (h t ht)
  | opener ts h hts => exact .opener ts (fun t ht => hPQ t (h t ht)) hts

def Line.endsOpen (line : Line) : Bool := line.tokens.getLast? == some blockOpen

def Line.isLoneClose (line : Line) : Bool := line.tokens == [blockClose]

/-! ## openers on a line -/

theorem Line.opens_of_token_eq {line : Line} {i : Nat} (h : line.token i = blockOpen) :
    line.opens = true := by
  rw [Line.opens, Line.contains, List.contains_iff_mem]
  rw [Line.token, List.getD_eq_getElem?_getD] at h
  cases hi : line.tokens[i]? with
  | none =>
    rw [hi, Option.getD_none] at h
    exact absurd h (by decide)
  | some t =>
    rw [hi, Option.getD_some] at h
    rw [← h]
    exact List.mem_of_getElem? hi

/-- the token at some place is an opener if the line opens a block -/
theorem Line.exists_token_of_opens {line : Line} (h : line.opens = true) :
    ∃ i, i < line.tokens.length ∧ line.token i = blockOpen := by
  rw [Line.opens, Line.contains, List.contains_iff_mem] at h
  obtain ⟨i, hi, he⟩ := List.getElem_of_mem h
  exact ⟨i, hi, by rw [Line.token, List.getD_eq_getElem?_getD, List.getElem?_eq_getElem hi, he]; rfl⟩

theorem Line.opens_of_isLoneOpen {line : Line} (h : line.isLoneOpen = true) :
    line.opens = true ∧ line.first ≠ blockClose := by
  have ht : line.tokens = [blockOpen] := beq_iff_eq.mp h
  rw [Line.opens, Line.contains, Line.first, Line.token, ht]
  decide

/-! ## what a scan keeps -/

namespace Scan

/-- the characters of the token being read, latest first: those of a word, or in a string all
since its quote -/
def SoundWord (quoted : Bool) (word : List Char) : Prop :=
  if quoted then ∃ body, '"' ∉ body ∧ word = body ++ ['"']
  else ∀ c ∈ word, CharClass.of c = .word

/-- a scan has read nothing but lines and tokens of the right form -/
structure Sound (s : Scan) : Prop where
  lines : ∀ l ∈ s.lines, l.IsMadeOf IsValueToken
  tokens : ∀ t ∈ s.tokens, IsValueToken t
  word : SoundWord s.quoted s.word

variable {s : Scan}

/-! ### the parts of a step -/

theorem endWord_of_nil (h : s.word = []) : s.endWord = s := by
  rw [endWord, h]

theorem endWord_of_ne_nil (h : s.word ≠ []) :
    s.endWord = { s with tokens := String.ofList s.word.reverse :: s.tokens, word := [] } := by
  obtain ⟨c, cs, hw⟩ := List.exists_cons_of_ne_nil h
  rw [endWord, hw]

theorem word_endWord (s : Scan) : s.endWord.word = [] := by
  by_cases h : s.word = []
  · rw [endWord_of_nil h, h]
  · rw [endWord_of_ne_nil h]

theorem quoted_endWord (s : Scan) : s.endWord.quoted = s.quoted := by
  by_cases h : s.word = []
  · rw [endWord_of_nil h]
  · rw [endWord_of_ne_nil h]

theorem lines_endWord (s : Scan) : s.endWord.lines = s.lines := by
  by_cases h : s.word = []
  · rw [endWord_of_nil h]
  · rw [endWord_of_ne_nil h]

theorem word_endLine (s : Scan) : s.endLine.word = s.word := by
  unfold endLine; split <;> rfl

theorem quoted_endLine (s : Scan) : s.endLine.quoted = s.quoted := by
  unfold endLine; split <;> rfl

theorem tokens_endLine (s : Scan) : s.endLine.tokens = [] := by
  unfold endLine; split
  · assumption
  · rfl

theorem count_eq (s : Scan) (c : Char) :
    (s.count c).lines = s.lines ∧ (s.count c).tokens = s.tokens ∧ (s.count c).word = s.word ∧
      (s.count c).quoted = s.quoted := by
  unfold count; split <;> exact ⟨rfl, rfl, rfl, rfl⟩

theorem step_terminator (hq : s.quoted = false) : s.step ';' = s.endWord.endLine := by
  rw [step_of_not_quoted hq]
  rfl

theorem step_opener (hq : s.quoted = false) :
    s.step '{' = (s.endWord.pushToken blockOpen).endLine := by
  rw [step_of_not_quoted hq]
  rfl

theorem isWord_of_soundWord {w : List Char} (hw : SoundWord false w) (hne : w ≠ []) :
    IsWord (String.ofList w.reverse) := by
  refine ⟨?_, ?_⟩
  · rw [String.toList_ofList]
    exact fun h => hne (List.reverse_eq_nil_iff.mp h)
  · intro c hc
    rw [String.toList_ofList, List.mem_reverse] at hc
    exact hw c hc

theorem Sound.endWord (hs : s.Sound) (hq : s.quoted = false) : s.endWord.Sound := by
  have hw := hs.word
  rw [hq] at hw
  refine ⟨?_, ?_, ?_⟩
  · rw [lines_endWord]
    exact hs.lines
  · by_cases h : s.word = []
    · rw [endWord_of_nil h]
      exact hs.tokens
    · rw [endWord_of_ne_nil h]
      intro t ht
      rcases List.mem_cons.mp ht with rfl | ht
      · exact .word (isWord_of_soundWord hw h)
      · exact hs.tokens t ht
  · rw [quoted_endWord, word_endWord, hq]
    intro c hc
    exact absurd hc List.not_mem_nil

theorem lines_endLine {P : String → Prop} (hl : ∀ l ∈ s.lines, l.IsMadeOf P)
    (ht : (∀ t ∈ s.tokens, P t) ∨ ∃ ts, (∀ t ∈ ts, P t) ∧ s.tokens = blockOpen :: ts) :
    ∀ l ∈ s.endLine.lines, l.IsMadeOf P := by
  unfold endLine
  split
  · exact hl
  · next t ts hts =>
    intro l hmem
    rcases List.mem_cons.mp hmem with rfl | hmem
    · rcases ht with ht | ⟨us, hus, he⟩
      · refine .plain (by simp) fun u hu => ht u ?_
        rw [hts]
        exact List.mem_reverse.mp hu
      · obtain ⟨rfl, rfl⟩ := List.cons.inj (hts.symm.trans he)
        exact .opener ts.reverse (fun u hu => hus u (List.mem_reverse.mp hu)) List.reverse_cons
    · exact hl l hmem

theorem Sound.endLine (hs : s.Sound) : s.endLine.Sound := by
  refine ⟨lines_endLine hs.lines (Or.inl hs.tokens), ?_, ?_⟩
  · rw [tokens_endLine]
    intro t ht
    exact absurd ht List.not_mem_nil
  · rw [quoted_endLine, word_endLine]
    exact hs.word

/-! ### the step -/

theorem Sound.stepQuoted (hs : s.Sound) (hq : s.quoted = true) (c : Char) :
    (s.stepQuoted c).Sound := by
  have hw := hs.word
  rw [hq] at hw
  obtain ⟨body, hb, he⟩ := hw
  by_cases hc : CharClass.of c = .quote
  · have hne : (s.push c).word ≠ [] := List.cons_ne_nil c s.word
    rw [Scan.stepQuoted, hc]
    refine ⟨?_, ?_, ?_⟩
    · show ∀ l ∈ (s.push c).endWord.lines, _
      rw [lines_endWord]
      exact hs.lines
    · show ∀ t ∈ (s.push c).endWord.tokens, _
      rw [endWord_of_ne_nil hne]
      intro t ht
      rcases List.mem_cons.mp ht with rfl | ht
      · refine .quotation ⟨body.reverse, fun h => hb (List.mem_reverse.mp h), ?_⟩
        show (String.ofList (c :: s.word).reverse).toList = _
        rw [String.toList_ofList, he, CharClass.of_eq_quote.mp hc]
        simp
      · exact hs.tokens t ht
    · show SoundWord false (s.push c).endWord.word
      rw [word_endWord]
      intro d hd
      exact absurd hd List.not_mem_nil
  · have hstep : s.stepQuoted c = s.push c := by
      unfold Scan.stepQuoted; split
      · contradiction
      · rfl
    rw [hstep]
    refine ⟨hs.lines, hs.tokens, ?_⟩
    show SoundWord s.quoted (c :: s.word)
    rw [hq]
    refine ⟨c :: body, ?_, by rw [he, List.cons_append]⟩
    intro h
    rcases List.mem_cons.mp h with rfl | h
    · exact hc rfl
    · exact hb h

theorem Sound.stepPlain (hs : s.Sound) (hq : s.quoted = false) (c : Char) :
    (s.stepPlain c).Sound := by
  have hw := hs.endWord hq
  have hend : s.endWord.quoted = false := (quoted_endWord s).trans hq
  unfold Scan.stepPlain
  cases hc : CharClass.of c with
  | quote =>
    refine ⟨hw.lines, hw.tokens, [], List.not_mem_nil, ?_⟩
    show c :: s.endWord.word = _
    rw [word_endWord, CharClass.of_eq_quote.mp hc, List.nil_append]
  | blank => exact hw
  | terminator => exact hw.endLine
  | opener =>
    refine ⟨lines_endLine hw.lines (Or.inr ⟨s.endWord.tokens, hw.tokens, rfl⟩), ?_, ?_⟩
    · rw [tokens_endLine]
      intro t ht
      exact absurd ht List.not_mem_nil
    · rw [quoted_endLine, word_endLine]
      exact hw.word
  | closer =>
    refine ⟨?_, hw.endLine.tokens, hw.endLine.word⟩
    intro l hl
    rcases List.mem_cons.mp hl with rfl | hl
    · exact .closer rfl
    · exact hw.endLine.lines l hl
  | operator =>
    refine ⟨hw.lines, ?_, hw.word⟩
    intro t ht
    rcases List.mem_cons.mp ht with rfl | ht
    · exact .operator ⟨c, hc, rfl⟩
    · exact hw.tokens t ht
  | word =>
    refine ⟨hs.lines, hs.tokens, ?_⟩
    have hsw := hs.word
    rw [hq] at hsw
    show SoundWord s.quoted (c :: s.word)
    rw [hq]
    intro d hd
    rcases List.mem_cons.mp hd with rfl | hd
    · exact hc
    · exact hsw d hd

theorem Sound.count (hs : s.Sound) (c : Char) : (s.count c).Sound := by
  obtain ⟨hl, ht, hw, hq⟩ := count_eq s c
  refine ⟨?_, ?_, ?_⟩
  · rw [hl]; exact hs.lines
  · rw [ht]; exact hs.tokens
  · rw [hw, hq]; exact hs.word

theorem Sound.step (hs : s.Sound) (c : Char) : (s.step c).Sound := by
  obtain ⟨_, _, _, hq⟩ := count_eq s c
  cases h : s.quoted with
  | true =>
    rw [step_of_quoted h]
    exact (hs.count c).stepQuoted (hq.trans h) c
  | false =>
    rw [step_of_not_quoted h]
    exact (hs.count c).stepPlain (hq.trans h) c

theorem sound_start : ({} : Scan).Sound := by
  refine ⟨?_, ?_, ?_⟩ <;> (intro x hx; exact absurd hx List.not_mem_nil)

theorem Sound.foldl (hs : s.Sound) (cs : List Char) : (cs.foldl Scan.step s).Sound := by
  induction cs generalizing s with
  | nil => exact hs
  | cons c cs ih => exact ih (hs.step c)

/-- at the end of a source the token being read can be a string without a second quote -/
theorem Sound.textToken_of_mem_endWord (hs : s.Sound) : ∀ t ∈ s.endWord.tokens, IsTextToken t := by
  by_cases h : s.word = []
  · rw [endWord_of_nil h]
    exact fun t ht => (hs.tokens t ht).isTextToken
  · rw [endWord_of_ne_nil h]
    intro t ht
    rcases List.mem_cons.mp ht with rfl | ht
    · have hw := hs.word
      cases hq : s.quoted with
      | false =>
        rw [hq] at hw
        exact Or.inl (.word (isWord_of_soundWord hw h))
      | true =>
        rw [hq] at hw
        obtain ⟨body, hb, he⟩ := hw
        refine Or.inr ⟨body.reverse, fun h => hb (List.mem_reverse.mp h), ?_⟩
        rw [String.toList_ofList, he]
        simp
    · exact (hs.tokens t ht).isTextToken

theorem Sound.finish (hs : s.Sound) : ∀ l ∈ s.finish, l.IsScanned := by
  intro l hl
  refine lines_endLine ?_ (Or.inl hs.textToken_of_mem_endWord) l (List.mem_reverse.mp hl)
  rw [lines_endWord]
  exact fun l hl => (hs.lines l hl).mono fun _ ht => ht.isTextToken

end Scan

/-! ## the lines of a source -/

/-- every line of a source is a lone closer, or has tokens that are no braces and perhaps an opener
behind them -/
theorem Line.isScanned_of_mem {source : String} {line : Line} (h : line ∈ Line.ofSource source) :
    line.IsScanned :=
  (Scan.sound_start.foldl source.toList).finish line h

namespace Line.IsScanned

variable {line : Line}

theorem ne_nil (h : line.IsScanned) : line.tokens ≠ [] := by
  cases h with
  | closer h => rw [h]; simp
  | plain hne h => exact hne
  | opener ts h hts => rw [hts]; simp

theorem ne_empty_of_mem (h : line.IsScanned) {t : String} (ht : t ∈ line.tokens) : t ≠ "" := by
  cases h with
  | closer h =>
    rw [h, List.mem_singleton] at ht
    rw [ht]; decide
  | plain hne h => exact (h t ht).ne_empty
  | opener ts h hts =>
    rw [hts, List.mem_append, List.mem_singleton] at ht
    rcases ht with ht | rfl
    · exact (h t ht).ne_empty
    · decide

/-- a token reads as empty only behind the last one -/
theorem length_le_of_token_eq (h : line.IsScanned) {i : Nat} (hi : line.token i = "") :
    line.tokens.length ≤ i := by
  rcases Nat.lt_or_ge i line.tokens.length with hlt | hge
  · refine absurd ?_ (h.ne_empty_of_mem (List.getElem_mem hlt))
    rw [← hi, Line.token, List.getD_eq_getElem?_getD, List.getElem?_eq_getElem hlt, Option.getD_some]
  · exact hge

theorem opens_eq (h : line.IsScanned) : line.opens = line.endsOpen := by
  rw [Bool.eq_iff_iff, Line.opens, Line.contains, List.contains_iff_mem, Line.endsOpen, beq_iff_eq]
  cases h with
  | closer h => rw [h]; decide
  | plain hne h =>
    refine ⟨fun ht => absurd rfl (h _ ht).ne_blockOpen, fun hl => ?_⟩
    exact absurd rfl (h _ (List.mem_of_getLast? hl)).ne_blockOpen
  | opener ts h hts =>
    rw [hts, List.getLast?_concat]
    exact ⟨fun _ => rfl, fun _ => List.mem_append_right _ List.mem_cons_self⟩

theorem closes_eq (h : line.IsScanned) : line.closes = line.isLoneClose := by
  rw [Bool.eq_iff_iff, Line.closes, Line.contains, List.contains_iff_mem, Line.isLoneClose,
    beq_iff_eq]
  cases h with
  | closer h => rw [h]; decide
  | plain hne h =>
    refine ⟨fun ht => absurd rfl (h _ ht).ne_blockClose, fun hl => ?_⟩
    rw [hl]; exact List.mem_cons_self
  | opener ts h hts =>
    refine ⟨fun ht => ?_, fun hl => by rw [hl]; exact List.mem_cons_self⟩
    rw [hts, List.mem_append, List.mem_singleton] at ht
    rcases ht with ht | ht
    · exact absurd rfl (h _ ht).ne_blockClose
    · exact absurd ht (by decide)

theorem first_eq_blockClose_iff (h : line.IsScanned) :
    line.first = blockClose ↔ line.closes = true := by
  constructor
  · intro hf
    obtain ⟨t, ts, hts⟩ := List.exists_cons_of_ne_nil h.ne_nil
    rw [Line.closes, Line.contains, List.contains_iff_mem, ← hf, Line.first, Line.token, hts]
    exact List.mem_cons_self
  · intro hc
    rw [h.closes_eq, Line.isLoneClose, beq_iff_eq] at hc
    rw [Line.first, Line.token, hc]
    rfl

theorem not_opens_of_closes (h : line.IsScanned) (hc : line.closes = true) :
    line.opens ≠ true := by
  rw [h.closes_eq, Line.isLoneClose, beq_iff_eq] at hc
  rw [Line.opens, Line.contains, hc]
  decide

end Line.IsScanned
end Markup
