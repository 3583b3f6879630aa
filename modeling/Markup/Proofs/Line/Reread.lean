import Markup.Proofs.Line.Sentence

/-!
# Reading the tokens of a line again

The tokens of a line that was cut from a source, from some token on, are written with one space
between neighbours and read as the same tokens (`IsTail.tokensOf_spaced`).  This does not hold of
any tokens: a string without a second quote swallows what is written behind it, and behind an opener
another line begins.  So only the last token can be one of these (`IsTail`), which is the case in
every line but a closer (`Line.isCut_of_mem`).
-/

namespace Markup

/-! ## the end of a line -/

/-- tokens up to the end of a line that is no closer -/
structure IsTail (ts : List String) : Prop where
  init : ∀ t ∈ ts.dropLast, IsValueToken t
  last : ∀ t ∈ ts.getLast?, IsTextToken t ∨ t = blockOpen

/-- the opener at the end of some tokens, if there is one -/
def openerOf (ts : List String) : List String :=
  if ts.getLast? == some blockOpen then [blockOpen] else []

/-- the form of a line of a source, its last token told apart -/
inductive Line.IsCut (line : Line) : Prop
  | closer (h : line.tokens = [blockClose])
  | tail (hne : line.tokens ≠ []) (h : IsTail line.tokens)

theorem isTail_nil : IsTail [] := ⟨fun _ h => absurd h List.not_mem_nil, fun _ h => absurd h (by simp)⟩

theorem isTail_concat {ts : List String} {t : String} :
    IsTail (ts ++ [t]) ↔ (∀ u ∈ ts, IsValueToken u) ∧ (IsTextToken t ∨ t = blockOpen) := by
  constructor
  · rintro ⟨hi, hl⟩
    rw [List.dropLast_concat] at hi
    exact ⟨hi, hl t (by simp)⟩
  · rintro ⟨hi, hl⟩
    refine ⟨by rwa [List.dropLast_concat], fun u hu => ?_⟩
    rw [List.getLast?_concat, Option.mem_some_iff] at hu
    exact hu ▸ hl

theorem isTail_of_valueTokens {ts : List String} (h : ∀ t ∈ ts, IsValueToken t) : IsTail ts := by
  rcases List.eq_nil_or_concat ts with rfl | ⟨us, t, rfl⟩
  · exact isTail_nil
  · rw [List.concat_eq_append] at h ⊢
    rw [isTail_concat]
    exact ⟨fun u hu => h u (List.mem_append_left _ hu),
      Or.inl (h t (List.mem_append_right _ List.mem_cons_self)).isTextToken⟩

theorem IsTail.of_cons {t : String} {ts : List String} (h : IsTail (t :: ts)) : IsTail ts := by
  rcases List.eq_nil_or_concat ts with rfl | ⟨us, u, rfl⟩
  · exact isTail_nil
  · rw [List.concat_eq_append] at h ⊢
    rw [← List.cons_append, isTail_concat] at h
    rw [isTail_concat]
    exact ⟨fun v hv => h.1 v (List.mem_cons_of_mem _ hv), h.2⟩

theorem IsTail.drop {ts : List String} (h : IsTail ts) (n : Nat) : IsTail (ts.drop n) := by
  induction n generalizing ts with
  | zero => exact h
  | succ n ih =>
    cases ts with
    | nil => exact isTail_nil
    | cons t ts => exact ih h.of_cons

theorem openerOf_concat (ts : List String) (t : String) :
    openerOf (ts ++ [t]) = if t = blockOpen then [blockOpen] else [] := by
  rw [openerOf, List.getLast?_concat]
  by_cases h : t = blockOpen <;> simp [h]

theorem IsTail.takeWhile {ts : List String} (h : IsTail ts) :
    IsTail (ts.takeWhile (· != blockOpen)) ∧
      ts = ts.takeWhile (· != blockOpen) ++ openerOf ts := by
  rcases List.eq_nil_or_concat ts with rfl | ⟨us, t, rfl⟩
  · exact ⟨isTail_nil, rfl⟩
  · rw [List.concat_eq_append] at h ⊢
    obtain ⟨hus, ht⟩ := isTail_concat.mp h
    have htake : (us ++ [t]).takeWhile (· != blockOpen) =
        us ++ [t].takeWhile (· != blockOpen) :=
      List.takeWhile_append_of_pos fun u hu => bne_iff_ne.mpr (hus u hu).isTextToken.ne_blockOpen
    rw [htake, openerOf_concat]
    by_cases ho : t = blockOpen
    · have hnone : [t].takeWhile (· != blockOpen) = [] :=
        List.takeWhile_cons_of_neg (by rw [ho]; decide)
      rw [if_pos ho, hnone, List.append_nil, ho]
      exact ⟨isTail_of_valueTokens hus, rfl⟩
    · have hone : [t].takeWhile (· != blockOpen) = [t] :=
        List.takeWhile_cons_of_pos (bne_iff_ne.mpr ho)
      rw [if_neg ho, hone, List.append_nil]
      exact ⟨h, rfl⟩

/-! ## reading it again -/

theorem spaced_concat {init : List String} (hne : init ≠ []) (last : String) :
    spaced (init ++ [last]) = spaced init ++ " " ++ last := by
  induction init with
  | nil => exact absurd rfl hne
  | cons t us ih =>
    cases us with
    | nil => rw [List.singleton_append, spaced_cons_cons, spaced_singleton, spaced_singleton]
    | cons u us =>
      rw [List.cons_append, List.cons_append, spaced_cons_cons, ← List.cons_append,
        ih (List.cons_ne_nil u us), spaced_cons_cons]
      simp only [String.append_assoc]

namespace Scan

variable {s : Scan} {ls : List (List String)} {ts : List String}

/-- at the end of a source, whatever stands before it, the text is read as these tokens -/
def Ends (text : String) (tokens : List String) : Prop :=
  ∀ s ls ts, Ready s ls ts →
    (text.toList.foldl step s).finish.flatMap Line.tokens =
      ls.reverse.flatten ++ (ts.reverse ++ tokens)

theorem flatMap_finish (hl : s.endWord.lines.map Line.tokens = ls) (ht : s.endWord.tokens = ts) :
    s.finish.flatMap Line.tokens = ls.reverse.flatten ++ ts.reverse := by
  rw [finish, endLine]
  cases ts with
  | nil =>
    rw [ht]
    simp only
    rw [List.flatMap_def, List.map_reverse, hl, List.reverse_nil, List.append_nil]
  | cons t us =>
    rw [ht]
    simp only
    rw [List.reverse_cons, List.flatMap_append, List.flatMap_def, List.map_reverse, hl,
      List.flatMap_singleton]

theorem Yields.ends {text : String} {tokens : List String} (h : Yields text tokens) :
    Ends text tokens := by
  intro s ls ts hs
  have hr := h s ls ts hs
  rw [flatMap_finish hr.lines hr.tokens, List.reverse_append, List.reverse_reverse]

theorem ends_blockOpen : Ends blockOpen [blockOpen] := by
  intro s ls ts hs
  have hr := Ready.opener (c := '\x7b') hs.endWord rfl
  have hstep : blockOpen.toList.foldl step s = s.step '\x7b' := rfl
  rw [hstep, flatMap_finish hr.endWord.lines hr.endWord.tokens]
  simp

theorem Ready.openQuotation (h : s.Ready ls ts) {q : String} (hq : IsOpenQuotation q) :
    (q.toList.foldl step s).endWord.lines.map Line.tokens = ls ∧
      (q.toList.foldl step s).endWord.tokens = q :: ts := by
  obtain ⟨body, hb, he⟩ := hq
  have hopen := Ready.quote h.endWord (c := '"') rfl
  have hready := (step_eq (c := '"') h.endWord).2
  have hquoted : (s.step '"').quoted = true := by rw [hopen]
  obtain ⟨_, hw, hl, ht⟩ : Gathers body (s.step '"') (body.foldl step (s.step '"')) :=
    gathers_foldl fun c hc t he =>
      gathers_quoted (fun hcq => hb (by rw [← hcq]; exact hc)) (he.trans hquoted)
  have hword : (body.foldl step (s.step '"')).word.reverse = q.toList := by
    rw [hw, hopen, he]
    simp
  have hne : (body.foldl step (s.step '"')).word ≠ [] := by
    rw [hw, hopen]
    exact List.append_ne_nil_of_right_ne_nil _ (List.cons_ne_nil _ _)
  have hsplit : q.toList.foldl step s = body.foldl step (s.step '"') := by rw [he, List.foldl_cons]
  constructor
  · rw [hsplit, lines_endWord, hl, hopen]
    exact hready.lines
  · rw [hsplit, endWord_of_ne_nil hne]
    show String.ofList (body.foldl step (s.step '"')).word.reverse :: _ = _
    rw [hword, String.ofList_toList, ht, hopen]
    exact congrArg _ hready.tokens

theorem ends_openQuotation {q : String} (hq : IsOpenQuotation q) : Ends q [q] := by
  intro s ls ts hs
  obtain ⟨hlines, htokens⟩ := hs.openQuotation hq
  rw [flatMap_finish hlines htokens, List.reverse_cons]

theorem Ready.before_last (h : s.Ready ls ts) {init : List String}
    (hi : ∀ t ∈ init, IsValueToken t) (last : String) :
    ∃ s' : Scan, s'.Ready ls (init.reverse ++ ts) ∧
      (spaced (init ++ [last])).toList.foldl step s = last.toList.foldl step s' := by
  by_cases hne : init = []
  · subst hne
    rw [List.nil_append, spaced_singleton]
    exact ⟨s, h, rfl⟩
  · have htext : (spaced (init ++ [last])).toList = (spaced init).toList ++ ' ' :: last.toList := by
      rw [spaced_concat hne, String.toList_append, String.toList_append, List.append_assoc]
      rfl
    refine ⟨_, Ready.blank (c := ' ') (yields_tokens hi s ls ts h) rfl, ?_⟩
    rw [htext, List.foldl_append, List.foldl_cons]

theorem ends_spaced {init : List String} (hi : ∀ t ∈ init, IsValueToken t) {last : String}
    (hl : Ends last [last]) : Ends (spaced (init ++ [last])) (init ++ [last]) := by
  intro s ls ts hs
  obtain ⟨s', hs', htext⟩ := hs.before_last hi last
  rw [htext, hl s' ls _ hs', List.reverse_append, List.reverse_reverse, List.append_assoc]

end Scan

theorem IsTail.tokensOf_spaced {ts : List String} (h : IsTail ts) : tokensOf (spaced ts) = ts := by
  rcases List.eq_nil_or_concat ts with rfl | ⟨us, t, rfl⟩
  · rfl
  · rw [List.concat_eq_append] at h ⊢
    obtain ⟨hus, ht⟩ := isTail_concat.mp h
    have hends : Scan.Ends t [t] := by
      rcases ht with (ht | ht) | rfl
      · exact (Scan.yields_token ht).ends
      · exact Scan.ends_openQuotation ht
      · exact Scan.ends_blockOpen
    exact Scan.ends_spaced hus hends {} [] [] Scan.ready_start

/-! ## the lines of a source -/

/-- every line of a source is a lone closer, or its tokens can be read again -/
theorem Line.isCut_of_mem {source : String} {line : Line} (h : line ∈ Line.ofSource source) :
    line.IsCut := by
  have hs : (source.toList.foldl Scan.step {}).Sound := Scan.sound_start.foldl source.toList
  have hlines : ∀ l ∈ (source.toList.foldl Scan.step {}).endWord.lines, l.IsCut := by
    rw [Scan.lines_endWord]
    intro l hl
    cases hs.lines l hl with
    | closer h => exact .closer h
    | plain hne h => exact .tail hne (isTail_of_valueTokens h)
    | opener ts h hts =>
      refine .tail (by simp [hts]) ?_
      rw [hts, isTail_concat]
      exact ⟨h, Or.inr rfl⟩
  have htokens : IsTail (source.toList.foldl Scan.step {}).endWord.tokens.reverse := by
    by_cases hw : (source.toList.foldl Scan.step {}).word = []
    · rw [Scan.endWord_of_nil hw]
      exact isTail_of_valueTokens fun t ht => hs.tokens t (List.mem_reverse.mp ht)
    · have htext := hs.textToken_of_mem_endWord
      rw [Scan.endWord_of_ne_nil hw] at htext ⊢
      rw [List.reverse_cons, isTail_concat]
      exact ⟨fun t ht => hs.tokens t (List.mem_reverse.mp ht), Or.inl (htext _ List.mem_cons_self)⟩
  have hmem : line ∈ (source.toList.foldl Scan.step {}).endWord.endLine.lines :=
    List.mem_reverse.mp h
  unfold Scan.endLine at hmem
  split at hmem
  · exact hlines line hmem
  · next t ts hts =>
    rcases List.mem_cons.mp hmem with rfl | hmem
    · rw [hts] at htokens
      exact .tail (by simp) htokens
    · exact hlines line hmem

end Markup
