import Markup.Proofs.Line.Joined

/-!
# Blanks between tokens

Blanks that are inserted outside strings, and not in a word, leave the tokens of all lines as they
are (`Line.sameTokens_insert`).  They end the word before them, which any character that is no part
of a word does as well; so behind that character two scans have the same tokens, with and without
the blanks, and go on alike.

* `SameTokens`         lines that differ in their numbers at most;
* `Scan.SameText`      scans that have read the same tokens;
* `Scan.quoted_ofText`   an odd number of quotes is before a character of a string.
-/

namespace Markup

/-- the lines have the same tokens, one by one -/
def SameTokens (lines lines' : List Line) : Prop := lines.map Line.tokens = lines'.map Line.tokens

namespace Scan

/-- the scans have read the same tokens, and are in the same token if they are in one -/
structure SameText (s t : Scan) : Prop where
  quoted : s.quoted = t.quoted
  word : s.word = t.word
  tokens : s.tokens = t.tokens
  lines : SameTokens s.lines t.lines

variable {s t : Scan}

/-! ## steps -/

theorem SameText.refl (s : Scan) : s.SameText s := ⟨rfl, rfl, rfl, rfl⟩

theorem SameText.symm (h : s.SameText t) : t.SameText s :=
  ⟨h.quoted.symm, h.word.symm, h.tokens.symm, h.lines.symm⟩

theorem SameText.trans {u : Scan} (h : s.SameText t) (h' : t.SameText u) : s.SameText u :=
  ⟨h.quoted.trans h'.quoted, h.word.trans h'.word, h.tokens.trans h'.tokens,
    h.lines.trans h'.lines⟩

theorem SameText.begin (h : s.SameText t) : s.begin.SameText t.begin :=
  ⟨h.quoted, h.word, h.tokens, h.lines⟩

theorem SameText.push (h : s.SameText t) (c : Char) : (s.push c).SameText (t.push c) :=
  ⟨h.quoted, congrArg (c :: ·) h.word, h.tokens, h.lines⟩

theorem SameText.pushToken (h : s.SameText t) (token : String) :
    (s.pushToken token).SameText (t.pushToken token) :=
  ⟨h.quoted, h.word, congrArg (token :: ·) h.tokens, h.lines⟩

theorem SameText.pushLine (h : s.SameText t) (tokens : List String) :
    (s.pushLine tokens).SameText (t.pushLine tokens) :=
  ⟨h.quoted, h.word, h.tokens, congrArg (tokens :: ·) h.lines⟩

theorem SameText.withQuoted (h : s.SameText t) (b : Bool) :
    { s with quoted := b }.SameText { t with quoted := b } := ⟨rfl, h.word, h.tokens, h.lines⟩

theorem SameText.endWord (h : s.SameText t) : s.endWord.SameText t.endWord := by
  by_cases hw : s.word = []
  · have hw' : t.word = [] := h.word.symm.trans hw
    rw [endWord_of_nil hw, endWord_of_nil hw']
    exact h
  · have hw' : t.word ≠ [] := fun e => hw (h.word.trans e)
    rw [endWord_of_ne_nil hw, endWord_of_ne_nil hw', h.word, h.tokens]
    exact ⟨h.quoted, rfl, rfl, h.lines⟩

theorem SameText.endLine (h : s.SameText t) : s.endLine.SameText t.endLine := by
  unfold Scan.endLine
  rw [h.tokens]
  cases t.tokens with
  | nil => exact ⟨h.quoted, h.word, rfl, h.lines⟩
  | cons u us => exact ⟨h.quoted, h.word, rfl, congrArg ((u :: us).reverse :: ·) h.lines⟩

theorem sameText_count (s : Scan) (c : Char) : (s.count c).SameText s := by
  obtain ⟨hl, ht, hw, hq⟩ := count_eq s c
  exact ⟨hq, hw, ht, congrArg (List.map Line.tokens) hl⟩

theorem SameText.stepQuoted (h : s.SameText t) (c : Char) :
    (s.stepQuoted c).SameText (t.stepQuoted c) := by
  unfold Scan.stepQuoted
  cases CharClass.of c with
  | quote => exact (h.push c).endWord.withQuoted false
  | blank | terminator | opener | closer | operator | word => exact h.push c

/-- a character that is no part of a word looks only at what is read once the word has ended -/
theorem SameText.stepPlain_of_endWord (h : s.endWord.SameText t.endWord) {c : Char}
    (hc : CharClass.of c ≠ .word) : (s.stepPlain c).SameText (t.stepPlain c) := by
  unfold Scan.stepPlain
  cases hclass : CharClass.of c with
  | quote => exact (h.begin.push c).withQuoted true
  | blank => exact h
  | terminator => exact h.endLine
  | opener => exact (h.pushToken blockOpen).endLine
  | closer => exact h.endLine.pushLine [blockClose]
  | operator => exact h.begin.pushToken (String.singleton c)
  | word => exact absurd hclass hc

theorem SameText.stepPlain (h : s.SameText t) (c : Char) :
    (s.stepPlain c).SameText (t.stepPlain c) := by
  by_cases hc : CharClass.of c = .word
  · unfold Scan.stepPlain
    rw [hc]
    exact h.begin.push c
  · exact SameText.stepPlain_of_endWord h.endWord hc

theorem SameText.count (h : s.SameText t) (c : Char) : (s.count c).SameText (t.count c) :=
  (sameText_count s c).trans (h.trans (sameText_count t c).symm)

theorem SameText.step (h : s.SameText t) (c : Char) : (s.step c).SameText (t.step c) := by
  cases hq : s.quoted with
  | true =>
    rw [step_of_quoted hq, step_of_quoted (h.quoted.symm.trans hq)]
    exact (h.count c).stepQuoted c
  | false =>
    rw [step_of_not_quoted hq, step_of_not_quoted (h.quoted.symm.trans hq)]
    exact (h.count c).stepPlain c

theorem SameText.foldl (h : s.SameText t) (cs : List Char) :
    (cs.foldl Scan.step s).SameText (cs.foldl Scan.step t) := by
  induction cs generalizing s t with
  | nil => exact h
  | cons c cs ih => exact ih (h.step c)

theorem SameText.finish (h : s.endWord.SameText t.endWord) : SameTokens s.finish t.finish := by
  show s.endWord.endLine.lines.reverse.map Line.tokens =
    t.endWord.endLine.lines.reverse.map Line.tokens
  rw [List.map_reverse, List.map_reverse, h.endLine.lines]

/-! ## blanks -/

theorem endWord_endWord (s : Scan) : s.endWord.endWord = s.endWord :=
  endWord_of_nil (word_endWord s)

theorem sameText_blanks (hq : s.quoted = false) {ws : List Char}
    (hw : ∀ c ∈ ws, CharClass.of c = .blank) :
    (ws.foldl step s).quoted = false ∧ (ws.foldl step s).endWord.SameText s.endWord ∧
      (s.word = [] → (ws.foldl step s).word = []) := by
  induction ws generalizing s with
  | nil => exact ⟨hq, SameText.refl _, id⟩
  | cons c cs ih =>
    obtain ⟨hc, hcs⟩ := List.forall_mem_cons.mp hw
    have hstep : s.step c = (s.count c).endWord := by
      rw [step_of_not_quoted hq, stepPlain, hc]
    have hcount : (s.count c).SameText s := sameText_count s c
    have hq' : (s.step c).quoted = false := by
      rw [hstep, quoted_endWord]
      exact hcount.quoted.trans hq
    obtain ⟨hquoted, hsame, hword⟩ := ih hq' hcs
    refine ⟨hquoted, hsame.trans ?_, fun _ => hword ?_⟩
    · rw [hstep, endWord_endWord]
      exact hcount.endWord
    · rw [hstep]
      exact word_endWord _

/-- behind blanks the lines go on as without them, unless the blanks are inside a word -/
theorem sameTokens_blanks (hq : s.quoted = false) {ws cs : List Char}
    (hw : ∀ c ∈ ws, CharClass.of c = .blank)
    (hc : s.word ≠ [] → ∀ c, cs.head? = some c → CharClass.of c ≠ .word) :
    SameTokens (cs.foldl step (ws.foldl step s)).finish (cs.foldl step s).finish := by
  obtain ⟨hq', hsame, hword⟩ := sameText_blanks hq hw
  by_cases hne : s.word = []
  · -- no word ends at the blanks, so they do nothing
    rw [endWord_of_nil hne, endWord_of_nil (hword hne)] at hsame
    exact (hsame.foldl cs).endWord.finish
  · cases cs with
    | nil => exact hsame.finish
    | cons c cs =>
      have hplain : CharClass.of c ≠ .word := hc hne c rfl
      have hcount : ((ws.foldl step s).count c).endWord.SameText (s.count c).endWord :=
        (sameText_count _ c).endWord.trans (hsame.trans (sameText_count s c).endWord.symm)
      have hstep : ((ws.foldl step s).step c).SameText (s.step c) := by
        rw [step_of_not_quoted hq, step_of_not_quoted hq']
        exact hcount.stepPlain_of_endWord hplain
      exact (hstep.foldl cs).endWord.finish

/-! ## quotes and words -/

theorem quoted_step (s : Scan) (c : Char) : (s.step c).quoted = (s.quoted ^^ (c == '"')) := by
  have hcount : (s.count c).quoted = s.quoted := (sameText_count s c).quoted
  have hquote : (c == '"') = (CharClass.of c == .quote) := by
    rw [Bool.eq_iff_iff, beq_iff_eq, beq_iff_eq]
    exact CharClass.of_eq_quote.symm
  rw [hquote]
  cases hq : s.quoted with
  | true =>
    rw [step_of_quoted hq, stepQuoted]
    cases CharClass.of c with
    | quote => rfl
    | blank | terminator | opener | closer | operator | word => exact hcount.trans hq
  | false =>
    have hend : (s.count c).endWord.quoted = false := (quoted_endWord _).trans (hcount.trans hq)
    rw [step_of_not_quoted hq, stepPlain]
    cases CharClass.of c with
    | quote => rfl
    | blank | operator => exact hend
    | terminator | closer => exact (quoted_endLine _).trans hend
    | opener => exact (quoted_endLine ((s.count c).endWord.pushToken blockOpen)).trans hend
    | word => exact hcount.trans hq

theorem quoted_foldl (s : Scan) (cs : List Char) :
    (cs.foldl step s).quoted = (s.quoted ^^ decide (cs.count '"' % 2 = 1)) := by
  induction cs generalizing s with
  | nil => exact (Bool.xor_false _).symm
  | cons c cs ih =>
    rw [List.foldl_cons, ih, quoted_step, List.count_cons, Bool.xor_assoc]
    congr 1
    by_cases hc : c = '"'
    · rcases Nat.mod_two_eq_zero_or_one (cs.count '"') with h | h <;> simp [hc, h, Nat.add_mod]
    · have hbeq : (c == '"') = false := beq_eq_false_iff_ne.mpr hc
      rw [hbeq, Bool.false_xor]
      rfl

/-- behind a text with an even number of quotes no string is open -/
theorem quoted_ofText {text : String} (h : text.toList.count '"' % 2 = 0) :
    (ofText text).quoted = false := by
  rw [ofText, quoted_foldl, h]
  rfl

/-- outside strings, a word is being read only behind one of its characters -/
theorem class_of_step {s : Scan} {c : Char} (hq : (s.step c).quoted = false)
    (hw : (s.step c).word ≠ []) : CharClass.of c = .word := by
  cases hs : s.quoted with
  | true =>
    -- this is the second quote of a string, and it ends the token
    rw [quoted_step, hs, Bool.true_xor, Bool.not_eq_false', beq_iff_eq] at hq
    rw [step_of_quoted hs, stepQuoted, hq] at hw
    exact absurd (word_endWord _) hw
  | false =>
    rw [quoted_step, hs, Bool.false_xor, beq_eq_false_iff_ne] at hq
    have hend : (s.count c).endWord.word = [] := word_endWord _
    rw [step_of_not_quoted hs, stepPlain] at hw
    cases h : CharClass.of c with
    | quote => exact absurd (CharClass.of_eq_quote.mp h) hq
    | blank | operator =>
      rw [h] at hw
      exact absurd hend hw
    | terminator | closer =>
      rw [h] at hw
      exact absurd ((word_endLine _).trans hend) hw
    | opener =>
      rw [h] at hw
      exact absurd ((word_endLine ((s.count c).endWord.pushToken blockOpen)).trans hend) hw
    | word => rfl

theorem last_of_word {text : String} (hq : (ofText text).quoted = false)
    (hw : (ofText text).word ≠ []) :
    ∃ c, text.toList.getLast? = some c ∧ CharClass.of c = .word := by
  rw [ofText] at hq hw
  rcases List.eq_nil_or_concat text.toList with hnil | ⟨cs, c, hcs⟩
  · rw [hnil] at hw
    exact absurd rfl hw
  · rw [List.concat_eq_append] at hcs
    rw [hcs, List.foldl_append, List.foldl_cons, List.foldl_nil] at hq hw
    exact ⟨c, by rw [hcs, List.getLast?_concat], class_of_step hq hw⟩

end Scan

/-- blanks outside strings that do not cut a word in two leave the tokens of all lines as they are -/
theorem Line.sameTokens_insert {a b w : String} (ha : a.toList.count '"' % 2 = 0)
    (hw : ∀ c ∈ w.toList, CharClass.of c = .blank)
    (hcut : ¬((∃ c, a.toList.getLast? = some c ∧ CharClass.of c = .word) ∧
      ∃ c, b.toList.head? = some c ∧ CharClass.of c = .word)) :
    SameTokens (Line.ofSource (a ++ w ++ b)) (Line.ofSource (a ++ b)) := by
  have hq := Scan.quoted_ofText ha
  have hinsert : Line.ofSource (a ++ w ++ b) =
      (b.toList.foldl Scan.step (w.toList.foldl Scan.step (Scan.ofText a))).finish := by
    show (Scan.ofText (a ++ w ++ b)).finish = _
    rw [Scan.ofText_append, Scan.ofText_append]
  have hplain : Line.ofSource (a ++ b) = (b.toList.foldl Scan.step (Scan.ofText a)).finish := by
    show (Scan.ofText (a ++ b)).finish = _
    rw [Scan.ofText_append]
  rw [hinsert, hplain]
  refine Scan.sameTokens_blanks hq hw fun hne c hhead hclass => ?_
  exact hcut ⟨Scan.last_of_word hq hne, c, hhead, hclass⟩

end Markup
