import Markup.Proofs.Line.Reread

/-!
# The format of tokens

The tokens of a source are lists of a certain format, one list for each line (`IsFormatted`).  Tokens
of this format can be written so that they are read as they were: one space between the tokens of a
line, one terminator between lines (`Line.ofSource_joined`).  A terminator behind a brace ends a line
without tokens, and such a line is not kept; a string may hold all that ends a token outside strings.

* `IsCompleteLine`     the tokens of a line that ends before its source does;
* `IsOpenLine`         the tokens of a line that ends in a string without a second quote;
* `joined`             token lists written out.
-/

namespace Markup

/-! ## the format -/

/-- the tokens of a line that ends before its source does, or could -/
inductive IsCompleteLine : List String → Prop
  | closer : IsCompleteLine [blockClose]
  | plain {ts : List String} (hne : ts ≠ []) (h : ∀ t ∈ ts, IsValueToken t) : IsCompleteLine ts
  | opener {ts : List String} (h : ∀ t ∈ ts, IsValueToken t) : IsCompleteLine (ts ++ [blockOpen])

/-- the tokens of a line that ends in a string without a second quote -/
def IsOpenLine (ts : List String) : Prop :=
  ∃ init q, (∀ t ∈ init, IsValueToken t) ∧ IsOpenQuotation q ∧ ts = init ++ [q]

/-- the tokens of the lines of a source; a string without a second quote can only be the last one -/
inductive IsFormatted : List (List String) → Prop
  | nil : IsFormatted []
  | last {ts : List String} (h : IsOpenLine ts) : IsFormatted [ts]
  | cons {ts : List String} {ls : List (List String)} (h : IsCompleteLine ts) (hs : IsFormatted ls) :
      IsFormatted (ts :: ls)

/-- one space between the tokens of a line, one terminator between lines -/
def joined (ls : List (List String)) : String := ";".intercalate (ls.map spaced)

theorem joined_nil : joined [] = "" := rfl

theorem joined_singleton (ts : List String) : joined [ts] = spaced ts := by
  simp [joined]

theorem joined_cons_cons (ts us : List String) (ls : List (List String)) :
    joined (ts :: us :: ls) = spaced ts ++ ";" ++ joined (us :: ls) := by
  simp [joined, String.intercalate_cons_cons]

/-! ## reading it -/

namespace Scan

variable {s : Scan} {ls : List (List String)} {ts : List String}

theorem Ready.completeLine (h : s.Ready ls []) (ht : IsCompleteLine ts) :
    ((spaced ts).toList.foldl step s).quoted = false ∧
      ((spaced ts).toList.foldl step s).endWord.endLine.Ready (ts :: ls) [] := by
  cases ht with
  | closer =>
    have hr := Ready.closer (c := '\x7d') h.endWord rfl
    rw [spaced_singleton]
    exact ⟨hr.quoted, hr.endWord.endLine_nil⟩
  | plain hne hts =>
    have hr := yields_tokens hts s ls [] h
    rw [List.append_nil] at hr
    have hline := hr.endLine fun e => hne (List.reverse_eq_nil_iff.mp e)
    rw [List.reverse_reverse] at hline
    exact ⟨(quoted_endWord _).symm.trans hr.quoted, hline⟩
  | @opener us hus =>
    obtain ⟨s', hs', htext⟩ := h.before_last hus blockOpen
    rw [List.append_nil] at hs'
    have hr := Ready.opener (c := '\x7b') hs'.endWord rfl
    rw [List.reverse_reverse] at hr
    rw [htext]
    exact ⟨hr.quoted, hr.endWord.endLine_nil⟩

theorem Ready.terminated (h : s.Ready ls []) (ht : IsCompleteLine ts) :
    ((spaced ts ++ ";").toList.foldl step s).Ready (ts :: ls) [] := by
  obtain ⟨hq, hr⟩ := h.completeLine ht
  rw [String.toList_append, List.foldl_append]
  show (((spaced ts).toList.foldl step s).step ';').Ready _ _
  rw [step_terminator hq]
  exact hr

theorem tokens_finish (h : s.endWord.endLine.lines.map Line.tokens = ls) :
    s.finish.map Line.tokens = ls.reverse := by
  rw [finish, List.map_reverse, h]

theorem Ready.openLine (h : s.Ready ls []) (ht : IsOpenLine ts) :
    ((spaced ts).toList.foldl step s).finish.map Line.tokens = (ts :: ls).reverse := by
  obtain ⟨init, q, hi, hq, rfl⟩ := ht
  obtain ⟨s', hs', htext⟩ := h.before_last hi q
  rw [List.append_nil] at hs'
  obtain ⟨hlines, htokens⟩ := hs'.openQuotation hq
  rw [htext]
  refine tokens_finish ?_
  rw [Scan.endLine, htokens]
  show (q :: init.reverse).reverse :: (q.toList.foldl step s').endWord.lines.map Line.tokens = _
  rw [hlines, List.reverse_cons, List.reverse_reverse]

theorem Ready.joined (h : s.Ready ls []) {rest : List (List String)} (hf : IsFormatted rest) :
    ((joined rest).toList.foldl step s).finish.map Line.tokens = ls.reverse ++ rest := by
  induction hf generalizing s ls with
  | nil =>
    rw [joined_nil, List.append_nil]
    exact tokens_finish h.endWord.endLine_nil.lines
  | last ht =>
    rw [joined_singleton, h.openLine ht, List.reverse_cons]
  | @cons ts rest ht _ ih =>
    cases rest with
    | nil =>
      rw [joined_singleton, ← List.reverse_cons]
      exact tokens_finish (h.completeLine ht).2.lines
    | cons us rest =>
      rw [joined_cons_cons, String.toList_append, List.foldl_append, ih (h.terminated ht),
        List.reverse_cons, List.append_assoc]
      rfl

end Scan

/-- tokens of the format, written out, are read as they were -/
theorem Line.ofSource_joined {ls : List (List String)} (h : IsFormatted ls) :
    (Line.ofSource (joined ls)).map Line.tokens = ls := Scan.ready_start.joined h

/-- braces on lines of their own and behind tokens, a string that holds what ends a token, and a string
without a second quote -/
theorem Line.ofSource_joined_menu :
    let ls := [["child", "UIText", "\x7b"], ["\x7b"], ["a", "=", "\"x;\n\x7b \x7d\"", "+", "é"],
      ["\x7d"], ["\x7d"], ["t", "=", "\"a;b \x7d"]]
    IsFormatted ls ∧ (Line.ofSource (joined ls)).map Line.tokens = ls := by
  intro ls
  have hword : ∀ w, IsWord w → IsValueToken w := fun _ => .word
  have hsign : ∀ c, CharClass.of c = .operator → IsValueToken (String.singleton c) :=
    fun c hc => .operator ⟨c, hc, rfl⟩
  have hquotation : IsValueToken "\"x;\n\x7b \x7d\"" :=
    .quotation ⟨['x', ';', '\n', '\x7b', ' ', '\x7d'], by decide, by decide⟩
  have hheader : IsCompleteLine (["child", "UIText"] ++ [blockOpen]) :=
    .opener (List.forall_mem_cons.mpr
      ⟨hword _ (by decide), List.forall_mem_singleton.mpr (hword _ (by decide))⟩)
  have hproperty : IsCompleteLine ["a", "=", "\"x;\n\x7b \x7d\"", "+", "é"] := by
    refine .plain (List.cons_ne_nil _ _) ?_
    simp only [List.forall_mem_cons, List.not_mem_nil, false_imp_iff, implies_true, and_true]
    exact ⟨hword _ (by decide), hsign '=' rfl, hquotation, hsign '+' rfl, hword _ (by decide)⟩
  have hlast : IsOpenLine (["t", "="] ++ ["\"a;b \x7d"]) :=
    ⟨["t", "="], "\"a;b \x7d", List.forall_mem_cons.mpr
        ⟨hword _ (by decide), List.forall_mem_singleton.mpr (hsign '=' rfl)⟩,
      ⟨['a', ';', 'b', ' ', '\x7d'], by decide, by decide⟩, rfl⟩
  have hlone : IsCompleteLine ([] ++ [blockOpen]) := .opener fun t ht => absurd ht List.not_mem_nil
  have h : IsFormatted ls := .cons hheader (.cons hlone
    (.cons hproperty (.cons .closer (.cons .closer (.last hlast)))))
  exact ⟨h, Line.ofSource_joined h⟩

/-! ## every source has it -/

theorem Line.IsMadeOf.isCompleteLine {line : Line} (h : line.IsMadeOf IsValueToken) :
    IsCompleteLine line.tokens := by
  cases h with
  | closer h => exact h ▸ .closer
  | plain hne h => exact .plain hne h
  | opener ts h hts => exact hts ▸ .opener h

theorem IsFormatted.append {ls rest : List (List String)} (h : ∀ ts ∈ ls, IsCompleteLine ts)
    (hr : IsFormatted rest) : IsFormatted (ls ++ rest) := by
  induction ls with
  | nil => exact hr
  | cons ts ls ih =>
    obtain ⟨ht, hls⟩ := List.forall_mem_cons.mp h
    exact .cons ht (ih hls)

namespace Scan

variable {s : Scan}

/-- the line that is being read when the source ends -/
theorem Sound.isFormatted_rest (hs : s.Sound) (hne : s.endWord.tokens ≠ []) :
    IsFormatted [s.endWord.tokens.reverse] := by
  by_cases hq : s.quoted = true
  · have hw := hs.word
    rw [hq] at hw
    obtain ⟨body, hb, he⟩ := hw
    have hword : s.word ≠ [] := by simp [he]
    rw [endWord_of_ne_nil hword, List.reverse_cons]
    refine .last ⟨_, _, fun t ht => hs.tokens t (List.mem_reverse.mp ht), ?_, rfl⟩
    refine ⟨body.reverse, fun h => hb (List.mem_reverse.mp h), ?_⟩
    rw [String.toList_ofList, he]
    simp
  · have hr := hs.endWord (Bool.eq_false_iff.mpr hq)
    refine .cons (.plain (fun h => hne (List.reverse_eq_nil_iff.mp h)) ?_) .nil
    exact fun t ht => hr.tokens t (List.mem_reverse.mp ht)

theorem Sound.isFormatted_finish (hs : s.Sound) : IsFormatted (s.finish.map Line.tokens) := by
  have hlines : ∀ ts ∈ s.lines.reverse.map Line.tokens, IsCompleteLine ts := by
    intro ts ht
    obtain ⟨line, hl, rfl⟩ := List.mem_map.mp ht
    exact (hs.lines line (List.mem_reverse.mp hl)).isCompleteLine
  unfold Scan.finish Scan.endLine
  cases hts : s.endWord.tokens with
  | nil =>
    have hr := IsFormatted.append hlines .nil
    rw [List.append_nil] at hr
    simp only
    rw [lines_endWord]
    exact hr
  | cons t ts =>
    have hr := hs.isFormatted_rest (by rw [hts]; exact List.cons_ne_nil t ts)
    rw [hts] at hr
    simp only
    rw [lines_endWord, List.reverse_cons, List.map_append]
    exact IsFormatted.append hlines hr

end Scan

/-- the format is that of the tokens of sources, and of no others -/
theorem Line.exists_ofSource_iff {ls : List (List String)} :
    (∃ source, (Line.ofSource source).map Line.tokens = ls) ↔ IsFormatted ls := by
  constructor
  · rintro ⟨source, rfl⟩
    exact (Scan.sound_start.foldl source.toList).isFormatted_finish
  · exact fun h => ⟨joined ls, Scan.ready_start.joined h⟩

end Markup
