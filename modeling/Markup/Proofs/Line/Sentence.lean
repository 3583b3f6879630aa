import Markup.Proofs.Line.Scanned

/-!
# Reading what was written

Tokens that are written with one space between neighbours are read as the same tokens.  A `Sentence`
is a line as it is written: pieces of text and the way in which the line ends.  Sentences that are
written one on each line are read as one line each (`Sentence.ofSource_source`).

* `Scan.Ready`         a scan between two tokens, and what it has read so far;
* `Scan.Yields`        a text that is read as certain tokens, wherever it stands.
-/

namespace Markup

/-! ## scanning a token -/

namespace Scan

/-- a scan that is not in a token, with the tokens of its lines and of the line being read, the
latest first -/
structure Ready (s : Scan) (ls : List (List String)) (ts : List String) : Prop where
  quoted : s.quoted = false
  word : s.word = []
  lines : s.lines.map Line.tokens = ls
  tokens : s.tokens = ts

variable {s : Scan} {ls : List (List String)} {ts : List String}

theorem ready_start : ({} : Scan).Ready [] [] := ⟨rfl, rfl, rfl, rfl⟩

theorem Ready.endWord (h : s.Ready ls ts) : s.endWord.Ready ls ts := by
  rw [endWord_of_nil h.word]
  exact h

theorem endWord_count (s : Scan) (c : Char) : (s.count c).endWord = s.endWord.count c := by
  by_cases h : s.word = []
  · rw [endWord_of_nil h, endWord_of_nil ((count_eq s c).2.2.1.trans h)]
  · unfold count
    split
    · rw [endWord_of_ne_nil h, endWord_of_ne_nil (s := { s with number := s.number + 1 }) h]
    · rfl

theorem Ready.count (h : s.Ready ls ts) (c : Char) : (s.count c).Ready ls ts := by
  obtain ⟨hl, ht, hw, hq⟩ := count_eq s c
  exact ⟨hq.trans h.quoted, hw.trans h.word, by rw [hl, h.lines], ht.trans h.tokens⟩

theorem Ready.endLine (h : s.Ready ls ts) (hts : ts ≠ []) :
    s.endLine.Ready (ts.reverse :: ls) [] := by
  refine ⟨(quoted_endLine s).trans h.quoted, (word_endLine s).trans h.word, ?_, tokens_endLine s⟩
  obtain ⟨t, us, hus⟩ := List.exists_cons_of_ne_nil hts
  rw [Scan.endLine, h.tokens, hus, ← h.lines]
  rfl

theorem Ready.endLine_nil (h : s.Ready ls []) : s.endLine.Ready ls [] := by
  refine ⟨(quoted_endLine s).trans h.quoted, (word_endLine s).trans h.word, ?_, tokens_endLine s⟩
  rw [Scan.endLine, h.tokens, ← h.lines]

/-! ### the characters that end a token -/

section
variable {c : Char} (h : s.endWord.Ready ls ts)
include h

theorem step_eq : s.step c = (s.count c).stepPlain c ∧ (s.count c).endWord.Ready ls ts := by
  have hq : s.quoted = false := (quoted_endWord s).symm.trans h.quoted
  rw [endWord_count]
  exact ⟨step_of_not_quoted hq c, h.count c⟩

theorem Ready.blank (hc : CharClass.of c = .blank) : (s.step c).Ready ls ts := by
  obtain ⟨hs, hr⟩ := step_eq (c := c) h
  rw [hs, stepPlain, hc]
  exact hr

theorem Ready.operator (hc : CharClass.of c = .operator) :
    (s.step c).Ready ls (String.singleton c :: ts) := by
  obtain ⟨hs, hr⟩ := step_eq (c := c) h
  rw [hs, stepPlain, hc]
  exact ⟨hr.quoted, hr.word, hr.lines, congrArg _ hr.tokens⟩

theorem Ready.terminator (hc : CharClass.of c = .terminator) (hts : ts ≠ []) :
    (s.step c).Ready (ts.reverse :: ls) [] := by
  obtain ⟨hs, hr⟩ := step_eq (c := c) h
  rw [hs, stepPlain, hc]
  exact hr.endLine hts

theorem Ready.opener (hc : CharClass.of c = .opener) :
    (s.step c).Ready ((ts.reverse ++ [blockOpen]) :: ls) [] := by
  obtain ⟨hs, hr⟩ := step_eq (c := c) h
  rw [hs, stepPlain, hc, ← List.reverse_cons]
  have hp : ((s.count c).endWord.pushToken blockOpen).Ready ls (blockOpen :: ts) :=
    ⟨hr.quoted, hr.word, hr.lines, congrArg _ hr.tokens⟩
  exact hp.endLine (List.cons_ne_nil _ _)

theorem Ready.quote (hc : CharClass.of c = .quote) :
    s.step c = { (s.count c).endWord.begin with word := [c], quoted := true } := by
  obtain ⟨hs, hr⟩ := step_eq (c := c) h
  rw [hs, stepPlain, hc]
  show { (s.count c).endWord.begin with word := c :: (s.count c).endWord.word, quoted := true } = _
  rw [hr.word]

end

theorem Ready.closer {c : Char} (h : s.endWord.Ready ls []) (hc : CharClass.of c = .closer) :
    (s.step c).Ready ([blockClose] :: ls) [] := by
  obtain ⟨hs, hr⟩ := step_eq (c := c) h
  have he := hr.endLine_nil
  rw [hs, stepPlain, hc]
  exact ⟨he.quoted, he.word, congrArg _ he.lines, he.tokens⟩

/-! ### the characters of a token -/

/-- these characters are gathered in the token being read -/
structure Gathers (cs : List Char) (s s' : Scan) : Prop where
  quoted : s'.quoted = s.quoted
  word : s'.word = cs.reverse ++ s.word
  lines : s'.lines = s.lines
  tokens : s'.tokens = s.tokens

theorem gathers_word {c : Char} (hc : CharClass.of c = .word) (hq : s.quoted = false) :
    Gathers [c] s (s.step c) := by
  obtain ⟨hl, ht, hw, hqc⟩ := count_eq s c
  rw [step_of_not_quoted hq, stepPlain, hc]
  exact ⟨hqc, congrArg (c :: ·) hw, hl, ht⟩

theorem gathers_quoted {c : Char} (hc : c ≠ '"') (hq : s.quoted = true) :
    Gathers [c] s (s.step c) := by
  obtain ⟨hl, ht, hw, hqc⟩ := count_eq s c
  rw [step_of_quoted hq, stepQuoted]
  split
  · next h => exact absurd (CharClass.of_eq_quote.mp h) hc
  · exact ⟨hqc, congrArg (c :: ·) hw, hl, ht⟩

theorem gathers_foldl {cs : List Char}
    (h : ∀ c ∈ cs, ∀ t : Scan, t.quoted = s.quoted → Gathers [c] t (t.step c)) :
    Gathers cs s (cs.foldl step s) := by
  induction cs generalizing s with
  | nil => exact ⟨rfl, rfl, rfl, rfl⟩
  | cons c cs ih =>
    obtain ⟨hc, hcs⟩ := List.forall_mem_cons.mp h
    obtain ⟨hq, hw, hl, ht⟩ := hc s rfl
    obtain ⟨hq', hw', hl', ht'⟩ := ih (s := s.step c) fun d hd t he => hcs d hd t (he.trans hq)
    refine ⟨hq'.trans hq, ?_, hl'.trans hl, ht'.trans ht⟩
    have hrev : (c :: cs).reverse ++ s.word = cs.reverse ++ ([c] ++ s.word) := by
      rw [List.reverse_cons, List.append_assoc]
    rw [hrev, List.foldl_cons, hw', hw]
    rfl

theorem Ready.wordToken (h : s.Ready ls ts) {w : String} (hw : IsWord w) :
    (w.toList.foldl step s).endWord.Ready ls (w :: ts) := by
  obtain ⟨hq, hword, hl, ht⟩ : Gathers w.toList s (w.toList.foldl step s) :=
    gathers_foldl fun c hc t he => gathers_word (hw.2 c hc) (he.trans h.quoted)
  rw [h.word, List.append_nil] at hword
  have hne : (w.toList.foldl step s).word ≠ [] := by
    rw [hword]
    exact fun e => hw.1 (List.reverse_eq_nil_iff.mp e)
  rw [endWord_of_ne_nil hne]
  refine ⟨hq.trans h.quoted, rfl, by rw [hl, h.lines], ?_⟩
  show String.ofList (w.toList.foldl step s).word.reverse :: (w.toList.foldl step s).tokens = _
  rw [hword, List.reverse_reverse, String.ofList_toList, ht, h.tokens]

theorem Ready.quotation (h : s.Ready ls ts) {q : String} (hq : IsQuotation q) :
    (q.toList.foldl step s).Ready ls (q :: ts) := by
  obtain ⟨body, hb, he⟩ := hq
  have hopen := Ready.quote h.endWord (c := '"') rfl
  have hready := (step_eq (c := '"') h.endWord).2
  have hquoted : (s.step '"').quoted = true := by rw [hopen]
  obtain ⟨hq', hw', hl', ht'⟩ : Gathers body (s.step '"') (body.foldl step (s.step '"')) :=
    gathers_foldl fun c hc t he =>
      gathers_quoted (fun hcq => hb (by rw [← hcq]; exact hc)) (he.trans hquoted)
  have hsplit : q.toList.foldl step s = (body.foldl step (s.step '"')).step '"' := by
    rw [he, List.cons_append, List.foldl_cons, List.foldl_append]
    rfl
  have hclose : (body.foldl step (s.step '"')).step '"' =
      { ((body.foldl step (s.step '"')).push '"').endWord with quoted := false } := by
    rw [step_of_quoted (hq'.trans hquoted)]
    rfl
  have hword : ((body.foldl step (s.step '"')).push '"').word.reverse = q.toList := by
    show ('"' :: (body.foldl step (s.step '"')).word).reverse = _
    rw [hw', hopen, he]
    simp
  rw [hsplit, hclose, endWord_of_ne_nil (List.cons_ne_nil _ _), hword, String.ofList_toList]
  refine ⟨rfl, rfl, ?_, ?_⟩
  · show (body.foldl step (s.step '"')).lines.map Line.tokens = ls
    rw [hl', hopen]
    exact hready.lines
  · show q :: (body.foldl step (s.step '"')).tokens = q :: ts
    rw [ht', hopen]
    exact congrArg _ hready.tokens

/-! ## texts and their tokens -/

/-- wherever it stands between tokens, the text is read as these tokens -/
def Yields (text : String) (tokens : List String) : Prop :=
  ∀ s ls ts, Ready s ls ts → (text.toList.foldl step s).endWord.Ready ls (tokens.reverse ++ ts)

theorem yields_token {t : String} (ht : IsValueToken t) : Yields t [t] := by
  intro s ls ts h
  cases ht with
  | word hw => exact h.wordToken hw
  | operator ho =>
    obtain ⟨c, hc, rfl⟩ := ho
    rw [String.toList_singleton]
    exact (Ready.operator h.endWord hc).endWord
  | quotation hq => exact (h.quotation hq).endWord

theorem yields_spaced {f : String → List String} {texts : List String}
    (h : ∀ text ∈ texts, Yields text (f text)) : Yields (spaced texts) (texts.flatMap f) := by
  induction texts with
  | nil =>
    intro s ls ts hs
    rw [spaced_nil]
    exact hs.endWord
  | cons t us ih =>
    obtain ⟨ht, hus⟩ := List.forall_mem_cons.mp h
    cases us with
    | nil =>
      rw [spaced_singleton, List.flatMap_singleton]
      exact ht
    | cons u us =>
      intro s ls ts hs
      rw [spaced_cons_cons, String.toList_append, String.toList_append, List.foldl_append,
        List.foldl_append, List.flatMap_cons, List.reverse_append, List.append_assoc]
      exact ih hus _ _ _ (Ready.blank (c := ' ') (ht s ls ts hs) rfl)

theorem yields_tokens {ts : List String} (h : ∀ t ∈ ts, IsValueToken t) : Yields (spaced ts) ts := by
  have hy := yields_spaced (f := fun t => [t]) fun t ht => yields_token (h t ht)
  rwa [List.flatMap_singleton'] at hy

end Scan

theorem tokensOf_of_yields {text : String} {ts : List String} (h : Scan.Yields text ts) :
    tokensOf text = ts := by
  have hr := h {} [] [] Scan.ready_start
  rw [List.append_nil] at hr
  show ((text.toList.foldl Scan.step {}).endWord.endLine.lines.reverse).flatMap Line.tokens = ts
  rw [List.flatMap_def, List.map_reverse]
  by_cases hts : ts = []
  · subst hts
    rw [hr.endLine_nil.lines]
    rfl
  · rw [(hr.endLine fun e => hts (List.reverse_eq_nil_iff.mp e)).lines]
    simp

/-- tokens with one space between neighbours -/
def IsTokenText (text : String) : Prop := ∃ ts, (∀ t ∈ ts, IsValueToken t) ∧ text = spaced ts

theorem isTokenText_of_token {t : String} (h : IsValueToken t) : IsTokenText t :=
  ⟨[t], fun u hu => by rwa [List.mem_singleton.mp hu], (spaced_singleton t).symm⟩

theorem tokensOf_spaced {ts : List String} (h : ∀ t ∈ ts, IsValueToken t) :
    tokensOf (spaced ts) = ts := tokensOf_of_yields (Scan.yields_tokens h)

theorem tokensOf_token {t : String} (h : IsValueToken t) : tokensOf t = [t] :=
  tokensOf_of_yields (Scan.yields_token h)

theorem IsTokenText.yields {text : String} (h : IsTokenText text) :
    Scan.Yields text (tokensOf text) := by
  obtain ⟨ts, hts, rfl⟩ := h
  rw [tokensOf_spaced hts]
  exact Scan.yields_tokens hts

/-! ## sentences -/

/-- a line as it is written -/
inductive Sentence where
  | statement (pieces : List String)
  | opening (pieces : List String)
  | closing
  deriving DecidableEq, Repr

namespace Sentence

def text : Sentence → String
  | statement pieces => spaced pieces ++ ";"
  | opening pieces => spaced pieces ++ " \x7b"
  | closing => "\x7d"

/-- sentences, one on each line -/
def source : List Sentence → String
  | [] => ""
  | s :: ss => s.text ++ "\n" ++ source ss

def tokens : Sentence → List String
  | statement pieces => pieces.flatMap tokensOf
  | opening pieces => pieces.flatMap tokensOf ++ [blockOpen]
  | closing => [blockClose]

/-- the pieces are tokens, and there is something to read -/
def IsSound : Sentence → Prop
  | statement pieces => (∀ p ∈ pieces, IsTokenText p) ∧ pieces.flatMap tokensOf ≠ []
  | opening pieces => ∀ p ∈ pieces, IsTokenText p
  | closing => True

theorem ready_text {sentence : Sentence} (hs : sentence.IsSound) {s : Scan}
    {ls : List (List String)} (h : s.Ready ls []) :
    (sentence.text.toList.foldl Scan.step s).Ready (sentence.tokens :: ls) [] := by
  cases sentence with
  | statement pieces =>
    obtain ⟨hp, hne⟩ := hs
    have hr := Scan.yields_spaced (fun p hm => (hp p hm).yields) s ls [] h
    rw [List.append_nil] at hr
    have ht := Scan.Ready.terminator (c := ';') hr rfl fun e => hne (List.reverse_eq_nil_iff.mp e)
    rw [List.reverse_reverse] at ht
    rw [text, String.toList_append, List.foldl_append]
    exact ht
  | opening pieces =>
    have hr := Scan.yields_spaced (fun p hm => (hs p hm).yields) s ls [] h
    rw [List.append_nil] at hr
    have ho := Scan.Ready.opener (c := '\x7b') (Scan.Ready.blank (c := ' ') hr rfl).endWord rfl
    rw [List.reverse_reverse] at ho
    rw [text, String.toList_append, List.foldl_append]
    exact ho
  | closing => exact Scan.Ready.closer (c := '\x7d') h.endWord rfl

theorem ready_source {ss : List Sentence} (hs : ∀ sentence ∈ ss, sentence.IsSound) {s : Scan}
    {ls : List (List String)} (h : s.Ready ls []) :
    ((source ss).toList.foldl Scan.step s).Ready ((ss.map tokens).reverse ++ ls) [] := by
  induction ss generalizing s ls with
  | nil => exact h
  | cons sentence ss ih =>
    obtain ⟨hsound, hss⟩ := List.forall_mem_cons.mp hs
    have hblank := Scan.Ready.blank (c := '\n') (ready_text hsound h).endWord rfl
    rw [source, String.toList_append, String.toList_append, List.foldl_append, List.foldl_append,
      List.map_cons, List.reverse_cons, List.append_assoc]
    exact ih hss hblank

/-- sentences are read as one line each -/
theorem ofSource_source {ss : List Sentence} (hs : ∀ sentence ∈ ss, sentence.IsSound) :
    (Line.ofSource (source ss)).map Line.tokens = ss.map tokens := by
  have hr := (ready_source hs Scan.ready_start).endWord.endLine_nil.lines
  rw [List.append_nil] at hr
  show ((source ss).toList.foldl Scan.step {}).endWord.endLine.lines.reverse.map Line.tokens = _
  rw [List.map_reverse, hr, List.reverse_reverse]

/-! ### braces -/

def opens : Sentence → Bool
  | opening _ => true
  | statement _ | closing => false

def closes : Sentence → Bool
  | closing => true
  | statement _ | opening _ => false

theorem isValueToken_of_mem {pieces : List String} (hp : ∀ p ∈ pieces, IsTokenText p) {t : String}
    (ht : t ∈ pieces.flatMap tokensOf) : IsValueToken t := by
  obtain ⟨p, hm, ht⟩ := List.mem_flatMap.mp ht
  obtain ⟨ts, hts, rfl⟩ := hp p hm
  rw [tokensOf_spaced hts] at ht
  exact hts t ht

section
variable {sentence : Sentence} (hs : sentence.IsSound) {line : Line}
  (ht : line.tokens = sentence.tokens)
include hs ht

theorem isScanned : line.IsScanned := by
  cases sentence with
  | statement pieces =>
    refine .plain ?_ ?_
    · rw [ht]
      exact hs.2
    · rw [ht]
      exact fun t hm => (isValueToken_of_mem hs.1 hm).isTextToken
  | opening pieces => exact .opener _ (fun t hm => (isValueToken_of_mem hs hm).isTextToken) ht
  | closing => exact .closer ht

theorem opens_eq : line.opens = sentence.opens := by
  rw [Line.opens, Line.contains, ht, Bool.eq_iff_iff, List.contains_iff_mem]
  cases sentence with
  | statement pieces =>
    refine ⟨fun hm => ?_, fun h => absurd h Bool.false_ne_true⟩
    exact absurd rfl (isValueToken_of_mem hs.1 hm).isTextToken.ne_blockOpen
  | opening pieces => exact ⟨fun _ => rfl, fun _ => List.mem_append_right _ List.mem_cons_self⟩
  | closing => decide

theorem closes_eq : line.closes = sentence.closes := by
  rw [Line.closes, Line.contains, ht, Bool.eq_iff_iff, List.contains_iff_mem]
  cases sentence with
  | statement pieces =>
    refine ⟨fun hm => ?_, fun h => absurd h Bool.false_ne_true⟩
    exact absurd rfl (isValueToken_of_mem hs.1 hm).isTextToken.ne_blockClose
  | opening pieces =>
    refine ⟨fun hm => ?_, fun h => absurd h Bool.false_ne_true⟩
    rcases List.mem_append.mp hm with hm | hm
    · exact absurd rfl (isValueToken_of_mem hs hm).isTextToken.ne_blockClose
    · exact absurd (List.mem_singleton.mp hm) (by decide)
  | closing => exact ⟨fun _ => rfl, fun _ => List.mem_cons_self⟩

end

end Sentence
end Markup
