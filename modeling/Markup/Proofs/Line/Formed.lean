import Markup.Proofs.Line.Run

/-!
# The lines of a source are well formed

What can be relied on when lines are read: no line and no token is empty, a closer is alone on its
line, an opener ends its line, and every other token is of one of four kinds, told by its characters
(`Line.IsFormed`).  A string without a second quote is no more than the last token of the last line,
and the tokens with a quote on both ends are just the strings that have two (`Line.ofSource_formed`).

* `operators`, `nonWordChars`    the characters that have a role of their own, one by one;
* `Line.IsFormed`                 the form of a line, token by token;
* `IsFormatted.last_of_open`       where a string without a second quote can stand.
-/

namespace Markup

/-! ## characters and tokens -/

/-- the characters that are tokens by themselves -/
def operators : List Char := ['<', '>', '(', ')', '=', ',', '+', '-', '*', '/', '%', '[', ']']

/-- the characters that no word has -/
def nonWordChars : List Char := [' ', '\t', '\n', '\r', '"', ';', '{', '}'] ++ operators

theorem CharClass.of_eq_operator {c : Char} : CharClass.of c = .operator ↔ c ∈ operators := by
  unfold CharClass.of; split <;> simp_all [operators]

theorem CharClass.of_eq_word {c : Char} : CharClass.of c = .word ↔ c ∉ nonWordChars := by
  unfold CharClass.of; split <;> simp_all [nonWordChars, operators]

theorem isWord_iff {t : String} : IsWord t ↔ t ≠ "" ∧ ∀ c ∈ t.toList, c ∉ nonWordChars := by
  simp only [IsWord, CharClass.of_eq_word, ne_eq, String.toList_eq_nil_iff]

theorem isOperatorToken_iff {t : String} :
    IsOperatorToken t ↔ ∃ c ∈ operators, t = String.singleton c := by
  simp only [IsOperatorToken, CharClass.of_eq_operator]

/-- a quote begins no word and no operator, and a string with two quotes has two of them -/
theorem IsValueToken.not_isOpenQuotation {t : String} (h : IsValueToken t) : ¬IsOpenQuotation t := by
  rintro ⟨body, hbody, hl⟩
  have hmem : '"' ∈ t.toList := by rw [hl]; exact List.mem_cons_self
  cases h with
  | word h =>
    have hclass : CharClass.of '"' = .word := h.2 '"' hmem
    exact absurd hclass (by decide)
  | operator h =>
    obtain ⟨c, hc, rfl⟩ := h
    obtain rfl : '"' = c := by simpa using hmem
    exact absurd hc (by decide)
  | quotation h =>
    obtain ⟨inside, _, hq⟩ := h
    rw [hl, List.cons_append] at hq
    obtain ⟨-, rfl⟩ := List.cons.inj hq
    exact hbody (List.mem_append_right _ List.mem_cons_self)

/-- what is not among the first elements of a list is its last one -/
theorem last_of_not_mem {α : Type} {as : List α} {a b : α} {i : Nat}
    (h : (as ++ [a])[i]? = some b) (hb : b ∉ as) : i + 1 = (as ++ [a]).length := by
  have hlt := (List.getElem?_eq_some_iff.mp h).1
  rw [List.length_append, List.length_singleton] at hlt ⊢
  by_cases hend : i < as.length
  · rw [List.getElem?_append_left hend] at h
    exact absurd (List.mem_of_getElem? h) hb
  · omega

/-! ## the form of a line -/

/-- the form of a line: what its braces are, and what its other tokens are -/
structure Line.IsFormed (line : Line) : Prop where
  ne_nil : line.tokens ≠ []
  closer : blockClose ∈ line.tokens → line.tokens = [blockClose]
  opener : ∀ i, line.tokens[i]? = some blockOpen → i + 1 = line.tokens.length
  tokens : ∀ t ∈ line.tokens, t ≠ blockOpen → t ≠ blockClose →
    (t ≠ "" ∧ ∀ c ∈ t.toList, c ∉ nonWordChars) ∨ (∃ c ∈ operators, t = String.singleton c) ∨
      IsQuotation t ∨ IsOpenQuotation t

theorem IsTextToken.kinds {t : String} (h : IsTextToken t) :
    (t ≠ "" ∧ ∀ c ∈ t.toList, c ∉ nonWordChars) ∨ (∃ c ∈ operators, t = String.singleton c) ∨
      IsQuotation t ∨ IsOpenQuotation t := by
  rcases h with (h | h | h) | h
  · exact Or.inl (isWord_iff.mp h)
  · exact Or.inr (Or.inl (isOperatorToken_iff.mp h))
  · exact Or.inr (Or.inr (Or.inl h))
  · exact Or.inr (Or.inr (Or.inr h))

theorem Line.IsScanned.isFormed {line : Line} (h : line.IsScanned) : line.IsFormed where
  ne_nil := h.ne_nil
  closer hm := by
    have hc : line.closes = true := List.contains_iff_mem.mpr hm
    rw [h.closes_eq, Line.isLoneClose, beq_iff_eq] at hc
    exact hc
  opener i hi := by
    cases h with
    | closer h =>
      have hmem := List.mem_of_getElem? hi
      rw [h] at hmem
      exact absurd (List.mem_singleton.mp hmem) (by decide)
    | plain _ h => exact absurd rfl (h _ (List.mem_of_getElem? hi)).ne_blockOpen
    | opener ts h hts =>
      rw [hts] at hi ⊢
      exact last_of_not_mem hi fun hm => (h _ hm).ne_blockOpen rfl
  tokens t ht ho hc := by
    cases h with
    | closer h =>
      rw [h] at ht
      exact absurd (List.mem_singleton.mp ht) hc
    | plain _ h => exact (h t ht).kinds
    | opener ts h hts =>
      rw [hts] at ht
      rcases List.mem_append.mp ht with ht | ht
      · exact (h t ht).kinds
      · exact absurd (List.mem_singleton.mp ht) ho

/-! ## strings without a second quote -/

theorem IsCompleteLine.not_isOpenQuotation {ts : List String} (h : IsCompleteLine ts) {t : String}
    (ht : t ∈ ts) : ¬IsOpenQuotation t := by
  rcases h.isWholeToken t ht with hv | hb
  · exact hv.not_isOpenQuotation
  · rintro hq
    rcases hb with rfl | rfl
    · exact (IsTextToken.ne_blockOpen (Or.inr hq)) rfl
    · exact (IsTextToken.ne_blockClose (Or.inr hq)) rfl

/-- only the last token of the last line can be a string without a second quote -/
theorem IsFormatted.last_of_open {ls : List (List String)} (h : IsFormatted ls) {i j : Nat}
    {ts : List String} {t : String} (hi : ls[i]? = some ts) (hj : ts[j]? = some t)
    (ht : IsOpenQuotation t) : i + 1 = ls.length ∧ j + 1 = ts.length := by
  induction h generalizing i with
  | nil => exact absurd hi (by simp)
  | last hline =>
    obtain ⟨hlt, rfl⟩ := List.getElem?_eq_some_iff.mp hi
    obtain ⟨init, q, hinit, _, hts⟩ := hline
    rw [List.length_singleton] at hlt
    obtain rfl : i = 0 := by omega
    rw [List.getElem_cons_zero, hts] at hj ⊢
    exact ⟨rfl, last_of_not_mem hj fun hm => (hinit t hm).not_isOpenQuotation ht⟩
  | cons hline _ ih =>
    cases i with
    | zero =>
      rw [List.getElem?_cons_zero] at hi
      obtain rfl := Option.some.inj hi
      exact absurd ht (hline.not_isOpenQuotation (List.mem_of_getElem? hj))
    | succ i =>
      rw [List.getElem?_cons_succ] at hi
      obtain ⟨hlast, hend⟩ := ih hi
      rw [List.length_cons]
      exact ⟨by omega, hend⟩

/-! ## the lines of a source -/

/-- every line of a source is well formed, a string without a second quote is the last token of the
last line, and closed strings are told by the quotes on their ends -/
theorem Line.ofSource_formed (source : String) :
    let lines := Line.ofSource source
    (∀ line ∈ lines, line.IsFormed) ∧
      (∀ i line j t, lines[i]? = some line → line.tokens[j]? = some t → IsOpenQuotation t →
        i + 1 = lines.length ∧ j + 1 = line.tokens.length) ∧
      ∀ line ∈ lines, ∀ t ∈ line.tokens, isClosedString t = true ↔ IsQuotation t := by
  intro lines
  have hformat : IsFormatted (lines.map Line.tokens) := Line.exists_ofSource_iff.mp ⟨source, rfl⟩
  refine ⟨fun line hm => (Line.isScanned_of_mem hm).isFormed, ?_, ?_⟩
  · intro i line j t hi hj ht
    have hi' : (lines.map Line.tokens)[i]? = some line.tokens := by
      rw [List.getElem?_map, hi]
      rfl
    have hlast := hformat.last_of_open hi' hj ht
    rw [List.length_map] at hlast
    exact hlast
  · intro line hm t ht
    exact (isTokenRun_tokensOf source).isClosedString_iff (List.mem_flatMap.mpr ⟨line, hm, ht⟩)

end Markup
