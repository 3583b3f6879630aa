import Markup.Proofs.Line.Format

/-!
# The tokens of a text over all its lines

The tokens of a text, whatever lines they are on, can be written on one line and are read as the same
tokens again (`IsTokenRun.tokensOf_spaced`).  A brace that stands among them ends a line, so they can
be read as several lines, but it is a token by itself.  Only the last token can be a string without a
second quote.  An operator character needs no space around it (`Scan.Adds.sign`).

* `IsWholeToken`       a token that ends where it does, whatever is written behind it;
* `IsTokenRun`         the tokens of a text over all its lines;
* `Scan.HasRead`       a scan between two tokens, and what it has read over all lines;
* `Scan.Adds`          a text that is read as certain tokens, wherever it stands.
-/

namespace Markup

/-! ## tokens of several lines -/

/-- a token that ends where it does, whatever is written behind it -/
def IsWholeToken (t : String) : Prop := IsValueToken t ∨ t = blockOpen ∨ t = blockClose

/-- the tokens of a text over all its lines -/
inductive IsTokenRun : List String → Prop
  | whole {ts : List String} (h : ∀ t ∈ ts, IsWholeToken t) : IsTokenRun ts
  | cut {ts : List String} {q : String} (h : ∀ t ∈ ts, IsWholeToken t) (hq : IsOpenQuotation q) :
      IsTokenRun (ts ++ [q])

/-- of the tokens of a text, those that begin and end with a quote are closed strings -/
theorem IsTokenRun.isClosedString_iff {ts : List String} (h : IsTokenRun ts) {t : String}
    (ht : t ∈ ts) : isClosedString t = true ↔ IsQuotation t := by
  have hbrace : ∀ u, u = blockOpen ∨ u = blockClose → (isClosedString u = true ↔ IsQuotation u) := by
    intro u hu
    have hopen : isClosedString u = false := by rcases hu with rfl | rfl <;> decide
    refine iff_of_false (Bool.eq_false_iff.mp hopen) ?_
    rintro ⟨body, -, hl⟩
    exact Bool.eq_false_iff.mp hopen (isDelimited_iff.mpr ⟨body, hl⟩)
  have hwhole : ∀ u, IsWholeToken u → (isClosedString u = true ↔ IsQuotation u) := fun u hu =>
    hu.elim (fun hv => Markup.isClosedString_iff hv.isTextToken) (hbrace u)
  cases h with
  | whole h => exact hwhole t (h t ht)
  | cut h hq =>
    rcases List.mem_append.mp ht with ht | ht
    · exact hwhole t (h t ht)
    · obtain rfl := List.mem_singleton.mp ht
      exact Markup.isClosedString_iff (.inr hq)

theorem IsTokenRun.whole_of_append {ts us : List String} (h : IsTokenRun (ts ++ us)) (hne : us ≠ []) :
    ∀ t ∈ ts, IsWholeToken t := by
  obtain ⟨init, last, rfl⟩ : ∃ init last, us = init ++ [last] :=
    ⟨us.dropLast, us.getLast hne, (List.dropLast_concat_getLast hne).symm⟩
  rw [← List.append_assoc] at h
  generalize hline : ts ++ init ++ [last] = line at h
  cases h with
  | whole h =>
    subst hline
    exact fun t ht => h t (List.mem_append_left _ (List.mem_append_left _ ht))
  | cut h =>
    obtain ⟨rfl, -⟩ := List.append_inj' hline rfl
    exact fun t ht => h t (List.mem_append_left _ ht)

theorem IsTokenRun.whole_append {ts us : List String} (ht : ∀ t ∈ ts, IsWholeToken t)
    (hu : IsTokenRun us) : IsTokenRun (ts ++ us) := by
  cases hu with
  | whole h => exact .whole fun t hm => (List.mem_append.mp hm).elim (ht t) (h t)
  | cut h hq =>
    rw [← List.append_assoc]
    exact .cut (fun t hm => (List.mem_append.mp hm).elim (ht t) (h t)) hq

theorem IsCompleteLine.isWholeToken {ts : List String} (h : IsCompleteLine ts) :
    ∀ t ∈ ts, IsWholeToken t := by
  cases h with
  | closer => exact fun t ht => .inr (.inr (List.mem_singleton.mp ht))
  | plain _ h => exact fun t ht => .inl (h t ht)
  | opener h =>
    intro t ht
    rcases List.mem_append.mp ht with ht | ht
    · exact .inl (h t ht)
    · exact .inr (.inl (List.mem_singleton.mp ht))

theorem IsFormatted.isTokenRun {ls : List (List String)} (h : IsFormatted ls) :
    IsTokenRun ls.flatten := by
  induction h with
  | nil => exact .whole fun t ht => absurd ht List.not_mem_nil
  | last h =>
    obtain ⟨init, q, hi, hq, rfl⟩ := h
    rw [List.flatten_singleton]
    exact .cut (fun t ht => .inl (hi t ht)) hq
  | cons h _ ih => exact IsTokenRun.whole_append h.isWholeToken ih

theorem isTokenRun_tokensOf (text : String) : IsTokenRun (tokensOf text) := by
  rw [tokensOf, List.flatMap_def]
  exact (Line.exists_ofSource_iff.mp ⟨text, rfl⟩).isTokenRun

/-! ## reading them -/

namespace Scan

/-- a scan that is not in a token and has read these tokens, over all its lines -/
def HasRead (s : Scan) (ts : List String) : Prop :=
  ∃ ls us, s.Ready ls us ∧ ts = ls.reverse.flatten ++ us.reverse

variable {s : Scan} {ts us : List String}

theorem hasRead_start : ({} : Scan).HasRead [] := ⟨[], [], ready_start, rfl⟩

theorem HasRead.endWord (h : s.HasRead ts) : s.endWord.HasRead ts := by
  obtain ⟨ls, us, hs, rfl⟩ := h
  exact ⟨ls, us, hs.endWord, rfl⟩

theorem HasRead.endLine (h : s.HasRead ts) :
    ∃ ls, s.endLine.Ready ls [] ∧ ts = ls.reverse.flatten := by
  obtain ⟨ls, us, hs, rfl⟩ := h
  by_cases hus : us = []
  · subst hus
    exact ⟨ls, hs.endLine_nil, by simp⟩
  · exact ⟨us.reverse :: ls, hs.endLine hus, by simp⟩

theorem HasRead.finish (h : s.endWord.HasRead ts) : s.finish.flatMap Line.tokens = ts := by
  obtain ⟨ls, us, hs, rfl⟩ := h
  exact flatMap_finish hs.lines hs.tokens

/-! ### the characters between tokens -/

section
variable {c : Char} (h : s.endWord.HasRead ts)
include h

theorem HasRead.blank (hc : CharClass.of c = .blank) : (s.step c).HasRead ts := by
  obtain ⟨ls, us, hs, rfl⟩ := h
  exact ⟨ls, us, Ready.blank hs hc, rfl⟩

theorem HasRead.operator (hc : CharClass.of c = .operator) :
    (s.step c).HasRead (ts ++ [String.singleton c]) := by
  obtain ⟨ls, us, hs, rfl⟩ := h
  exact ⟨ls, _, Ready.operator hs hc, by simp⟩

theorem HasRead.opener (hc : CharClass.of c = .opener) :
    (s.step c).HasRead (ts ++ [blockOpen]) := by
  obtain ⟨ls, us, hs, rfl⟩ := h
  exact ⟨_, [], Ready.opener hs hc, by simp⟩

theorem HasRead.closer (hc : CharClass.of c = .closer) :
    (s.step c).HasRead (ts ++ [blockClose]) := by
  obtain ⟨ls, us, hs, hts⟩ := h
  obtain ⟨hstep, hr⟩ := step_eq (c := c) hs
  -- a line that has been begun ends before the closer
  obtain ⟨ls', he, hts'⟩ := HasRead.endLine ⟨ls, us, hr, hts⟩
  have hclose : ((s.count c).endWord.endLine.pushLine [blockClose]).Ready ([blockClose] :: ls') [] :=
    ⟨he.quoted, he.word, congrArg _ he.lines, he.tokens⟩
  rw [hstep, stepPlain, hc]
  exact ⟨_, [], hclose, by simp [hts']⟩

end

/-! ### texts -/

/-- wherever it stands between tokens, the text is read as these tokens, over all lines -/
def Adds (text : String) (tokens : List String) : Prop :=
  ∀ s ts, HasRead s ts → (text.toList.foldl step s).endWord.HasRead (ts ++ tokens)

variable {a b : String}

theorem Adds.empty : Adds "" [] := by
  intro s ts h
  rw [List.append_nil]
  exact h.endWord

theorem Yields.adds (h : Yields a ts) : Adds a ts := by
  rintro s _ ⟨ls, us, hs, rfl⟩
  exact ⟨ls, _, h s ls us hs, by simp⟩

theorem adds_token {t : String} (ht : IsWholeToken t) : Adds t [t] := by
  rcases ht with ht | rfl | rfl
  · exact (yields_token ht).adds
  · exact fun s ts h => (h.endWord.opener (c := '\x7b') rfl).endWord
  · exact fun s ts h => (h.endWord.closer (c := '\x7d') rfl).endWord

theorem Adds.blank (ha : Adds a ts) (hb : Adds b us) : Adds (a ++ " " ++ b) (ts ++ us) := by
  intro s read h
  have hspace := HasRead.blank (c := ' ') (ha s read h) rfl
  rw [String.toList_append, String.toList_append, List.foldl_append, List.foldl_append,
    ← List.append_assoc]
  exact hb _ _ hspace

theorem Adds.sign {c : Char} (hc : CharClass.of c = .operator) (ha : Adds a ts) (hb : Adds b us) :
    Adds (a ++ String.singleton c ++ b) (ts ++ String.singleton c :: us) := by
  intro s read h
  have hsign := HasRead.operator (ha s read h) hc
  rw [String.toList_append, String.toList_append, String.toList_singleton, List.foldl_append,
    List.foldl_append, List.append_cons, ← List.append_assoc, ← List.append_assoc]
  exact hb _ _ hsign

theorem adds_spaced (h : ∀ t ∈ ts, IsWholeToken t) : Adds (spaced ts) ts := by
  induction ts with
  | nil => exact .empty
  | cons t ts ih =>
    obtain ⟨ht, hts⟩ := List.forall_mem_cons.mp h
    cases ts with
    | nil =>
      rw [spaced_singleton]
      exact adds_token ht
    | cons u us =>
      rw [spaced_cons_cons]
      exact (adds_token ht).blank (ih hts)

theorem Adds.tokensOf (h : Adds a ts) : tokensOf a = ts := (h {} [] hasRead_start).finish

end Scan

theorem IsTokenRun.tokensOf_spaced {ts : List String} (h : IsTokenRun ts) :
    tokensOf (spaced ts) = ts := by
  cases h with
  | whole h => exact (Scan.adds_spaced h).tokensOf
  | @cut ts q h hq =>
    -- the string is read behind the tokens before it, and a space if there are such tokens
    have hends : ∀ s us, Scan.HasRead s us →
        (q.toList.foldl Scan.step s).finish.flatMap Line.tokens = us ++ [q] := by
      rintro s _ ⟨ls, us, hs, rfl⟩
      rw [Scan.ends_openQuotation hq s ls us hs, List.append_assoc]
    by_cases hne : ts = []
    · subst hne
      rw [List.nil_append, spaced_singleton]
      exact hends {} [] Scan.hasRead_start
    · have hread := Scan.adds_spaced h {} [] Scan.hasRead_start
      have htext : (spaced (ts ++ [q])).toList = (spaced ts).toList ++ ' ' :: q.toList := by
        rw [spaced_concat hne, String.toList_append, String.toList_append, List.append_assoc]
        rfl
      rw [tokensOf, Line.ofSource, htext, List.foldl_append, List.foldl_cons]
      exact hends _ _ (hread.blank (c := ' ') rfl)

end Markup
