import Markup.Proofs.Line.Conserved
import Mathlib.Data.List.Infix

/-!
# The numbers of lines

A line carries the number of the source line of its first character (`Line.ofSource_numbered`).  The
characters of the tokens are those that are not dropped, in the same order; so the first character of
a line is the one that has before it, of those that are not dropped, as many as there are characters
on the lines before.

The scan keeps the number as a mark that a line begins here.  The mark is set at the first character
of a line and is lost when the line ends; a lone brace has no mark and takes the number of its own
source line, which is what the mark would have been.  So a brace can be taken for a token that begins
a line like any other (`Scan.endLine_begin`, `Scan.pushLine_eq`).

* `StandsOn`          the source line of a character that is not dropped;
* `Scan.Numbered`     the lines of a scan, and the one being read, have the right numbers;
* `lineOrigin`        the character with which a line begins.
-/

namespace Markup

/-! ## the source line of a character -/

/-- of the characters that are not dropped, the one with `k` before it stands on source line `n` -/
def StandsOn (cs : List Char) (k n : Nat) : Prop :=
  ∃ x, (origins cs)[k]? = some x ∧ n = 1 + (cs.take x.2).count '\n'

theorem getElem?_of_mem_origins {cs : List Char} {x : Char × Nat} (h : x ∈ origins cs) :
    cs[x.2]? = some x.1 :=
  List.mem_zipIdx_iff_getElem?.mp (List.mem_filter.mp h).1

section
variable {cs : List Char} {c : Char} {k n : Nat}

theorem StandsOn.concat (h : StandsOn cs k n) (c : Char) : StandsOn (cs ++ [c]) k n := by
  obtain ⟨x, hx, rfl⟩ := h
  have hk : k < (origins cs).length := (List.getElem?_eq_some_iff.mp hx).1
  have hlt : x.2 < cs.length :=
    (List.getElem?_eq_some_iff.mp (getElem?_of_mem_origins (List.mem_of_getElem? hx))).1
  refine ⟨x, ?_, ?_⟩
  · rw [origins_concat, List.getElem?_append_left hk]
    exact hx
  · rw [List.take_append_of_le_length (Nat.le_of_lt hlt)]

/-- the character that is read next, if it is not dropped -/
theorem standsOn_concat (h : isDropped c = false) :
    StandsOn (cs ++ [c]) (origins cs).length (1 + cs.count '\n') := by
  refine ⟨(c, cs.length), ?_, ?_⟩
  · rw [origins_concat, h, Bool.not_false, Bool.or_true, if_pos rfl, List.getElem?_concat_length]
  · rw [List.take_left]

end

namespace Scan

/-! ## a scan that numbers its lines -/

/-- the complete lines have the source lines of their first characters for numbers, and so has the
line that is being read -/
structure Numbered (cs : List Char) (s : Scan) : Prop where
  lines : ∀ line before, line :: before <:+ s.lines →
    StandsOn cs (charsOf before.reverse).length line.number
  start : ∀ n, s.start = some n → StandsOn cs (charsOf s.lines.reverse).length n
  begun : s.start = none → s.IsIdle

variable {cs : List Char} {s t : Scan}

theorem start_endWord (s : Scan) : s.endWord.start = s.start := by
  unfold endWord
  split <;> rfl

theorem numbered_start : ({} : Scan).Numbered [] where
  lines line before h := absurd (List.suffix_nil.mp h) (List.cons_ne_nil _ _)
  start n h := absurd h (by simp)
  begun _ := ⟨rfl, rfl, rfl⟩

theorem Numbered.concat (h : s.Numbered cs) (c : Char) : s.Numbered (cs ++ [c]) where
  lines line before hs := (h.lines line before hs).concat c
  start n hn := (h.start n hn).concat c
  begun := h.begun

theorem Numbered.of_begun (h : s.Numbered cs) (hs : s.start ≠ none) (hl : t.lines = s.lines)
    (ht : t.start = s.start) : t.Numbered cs where
  lines := by rw [hl]; exact h.lines
  start := by rw [hl, ht]; exact h.start
  begun hn := absurd (ht.symm.trans hn) hs

theorem Numbered.endWord (h : s.Numbered cs) : s.endWord.Numbered cs := by
  by_cases hs : s.start = none
  · rw [endWord_of_nil (h.begun hs).word]
    exact h
  · exact h.of_begun hs (lines_endWord s) (start_endWord s)

theorem Numbered.count (h : s.Numbered cs) (c : Char) : (s.count c).Numbered cs := by
  unfold Scan.count
  split
  · exact ⟨h.lines, h.start, fun hs => ⟨(h.begun hs).quoted, (h.begun hs).word, (h.begun hs).tokens⟩⟩
  · exact h

theorem Numbered.begin (h : s.Numbered cs)
    (hn : s.start = none → StandsOn cs (charsOf s.lines.reverse).length s.number) :
    s.begin.Numbered cs ∧ s.begin.start ≠ none := by
  refine ⟨⟨h.lines, fun n hs => ?_, fun hs => absurd hs (Option.some_ne_none _)⟩,
    Option.some_ne_none _⟩
  obtain rfl : s.start.getD s.number = n := Option.some.inj hs
  show StandsOn cs (charsOf s.lines.reverse).length _
  cases hstart : s.start with
  | none => exact hn hstart
  | some m => exact h.start m hstart

theorem Numbered.lines_endLine (h : s.Numbered cs) : ∀ line before, line :: before <:+ s.endLine.lines →
    StandsOn cs (charsOf before.reverse).length line.number := by
  unfold Scan.endLine
  cases hts : s.tokens with
  | nil => exact h.lines
  | cons t ts =>
    intro line before hs
    rcases List.suffix_cons_iff.mp hs with he | hs
    · obtain ⟨rfl, rfl⟩ := List.cons.inj he
      -- the line has tokens, so it has begun
      cases hstart : s.start with
      | none =>
        rw [(h.begun hstart).tokens] at hts
        exact absurd hts (List.cons_ne_nil t ts).symm
      | some n => exact h.start n hstart
    · exact h.lines line before hs

theorem Numbered.endLine (h : s.Numbered cs) (hq : s.quoted = false) (hw : s.word = []) :
    s.endLine.Numbered cs where
  lines := h.lines_endLine
  start n hn := by
    rw [start_endLine] at hn
    exact absurd hn (by simp)
  begun _ := ⟨(quoted_endLine s).trans hq, (word_endLine s).trans hw, tokens_endLine s⟩

/-! ## braces as tokens that begin a line -/

/-- a line that has not begun ends on the source line on which it would begin -/
theorem endLine_begin (s : Scan) (token : String) :
    (s.begin.pushToken token).endLine = (s.pushToken token).endLine := rfl

theorem pushLine_eq (h : s.tokens = []) (hs : s.start = none) (token : String) :
    s.pushLine [token] = (s.begin.pushToken token).endLine := by
  obtain ⟨lines, tokens, word, number, start, quoted⟩ := s
  obtain rfl : tokens = [] := h
  obtain rfl : start = none := hs
  rfl

/-! ## the step -/

theorem number_count {c : Char} (h : c ≠ '\n') (s : Scan) : (s.count c).number = s.number := by
  rw [Scan.count, if_neg h]

theorem Numbered.stepQuoted (h : s.Numbered cs) (hq : s.quoted = true) (c : Char) :
    (s.stepQuoted c).Numbered cs := by
  have hs : s.start ≠ none := by
    intro hs
    rw [(h.begun hs).quoted] at hq
    exact absurd hq Bool.false_ne_true
  unfold Scan.stepQuoted
  cases CharClass.of c with
  | quote => exact h.of_begun hs (lines_endWord (s.push c)) (start_endWord (s.push c))
  | blank | terminator | opener | closer | operator | word => exact h.of_begun hs rfl rfl

/-- what is asked of `s`, beside the numbers of its lines, is that the next character would be the
first of a line that has not begun -/
theorem Numbered.stepPlain (h : s.Numbered cs) (hq : s.quoted = false) {c : Char}
    (hn : isDropped c = false → ∀ t : Scan, t.gathered = s.gathered → t.number = s.number →
      t.IsIdle → StandsOn cs (charsOf t.lines.reverse).length t.number) :
    (s.stepPlain c).Numbered cs := by
  have hend : s.endWord.Numbered cs := h.endWord
  have hword : s.endWord.word = [] := word_endWord s
  have hquoted : s.endWord.quoted = false := (quoted_endWord s).trans hq
  have hbegin : isDropped c = false → ∀ t : Scan, t.Numbered cs → t.gathered = s.gathered →
      t.number = s.number → t.begin.Numbered cs ∧ t.begin.start ≠ none :=
    fun hc t ht hg hnum => ht.begin fun hs => hn hc t hg hnum (ht.begun hs)
  rw [isDropped_eq] at hbegin
  rw [Scan.stepPlain]
  cases hc : CharClass.of c with
  | quote =>
    rw [hc] at hbegin
    obtain ⟨hb, hs⟩ := hbegin rfl s.endWord hend (gathered_endWord s) (number_endWord s)
    exact hb.of_begun hs rfl rfl
  | blank => exact hend
  | terminator => exact hend.endLine hquoted hword
  | opener =>
    rw [hc] at hbegin
    obtain ⟨hb, hs⟩ := hbegin rfl s.endWord hend (gathered_endWord s) (number_endWord s)
    have ht : (s.endWord.begin.pushToken blockOpen).Numbered cs := hb.of_begun hs rfl rfl
    show (s.endWord.pushToken blockOpen).endLine.Numbered cs
    rw [← endLine_begin]
    exact ht.endLine hquoted hword
  | closer =>
    rw [hc] at hbegin
    have hline : s.endWord.endLine.Numbered cs := hend.endLine hquoted hword
    have hstart : s.endWord.endLine.start = none := start_endLine _
    obtain ⟨hb, hs⟩ := hbegin rfl s.endWord.endLine hline
      ((gathered_endLine _).trans (gathered_endWord s)) ((number_endLine _).trans (number_endWord s))
    have ht : (s.endWord.endLine.begin.pushToken blockClose).Numbered cs := hb.of_begun hs rfl rfl
    show (s.endWord.endLine.pushLine [blockClose]).Numbered cs
    rw [pushLine_eq (tokens_endLine _) hstart]
    exact ht.endLine (hline.begun hstart).quoted (hline.begun hstart).word
  | operator =>
    rw [hc] at hbegin
    obtain ⟨hb, hs⟩ := hbegin rfl s.endWord hend (gathered_endWord s) (number_endWord s)
    exact hb.of_begun hs rfl rfl
  | word =>
    rw [hc] at hbegin
    obtain ⟨hb, hs⟩ := hbegin rfl s h rfl rfl
    exact hb.of_begun hs rfl rfl

theorem numbered_foldl (cs : List Char) : (cs.foldl step {}).Numbered cs := by
  induction cs using List.reverseRecOn with
  | nil => exact numbered_start
  | append_singleton cs c ih =>
    have hnumber : (cs.foldl step {}).number = 1 + cs.count '\n' := number_foldl {} cs
    have hgathered : (cs.foldl step {}).gathered = (origins cs).map Prod.fst := gathered_foldl cs
    rw [List.foldl_append, List.foldl_cons, List.foldl_nil]
    generalize cs.foldl step {} = s at ih hnumber hgathered
    have hcount : (s.count c).Numbered (cs ++ [c]) := (ih.concat c).count c
    have hsame : (s.count c).quoted = s.quoted := (count_eq s c).2.2.2
    cases hq : s.quoted with
    | true =>
      rw [step_of_quoted hq]
      exact hcount.stepQuoted (hsame.trans hq) c
    | false =>
      rw [step_of_not_quoted hq]
      refine hcount.stepPlain (hsame.trans hq) fun hc t hg hn hi => ?_
      have hnewline : c ≠ '\n' := by
        rintro rfl
        exact absurd hc (by decide)
      -- nothing is read of the line, so all characters are on the lines before it
      have hchars : charsOf t.lines.reverse = (origins cs).map Prod.fst := by
        rw [← hgathered, ← gathered_count s c, ← hg, gathered, hi.tokens, hi.word]
        simp
      rw [hchars, List.length_map, hn, number_count hnewline, hnumber]
      exact standsOn_concat hc

theorem Numbered.finish (h : s.Numbered cs) {i : Nat} {line : Line} (hl : s.finish[i]? = some line) :
    StandsOn cs (charsOf (s.finish.take i)).length line.number := by
  obtain ⟨hlt, rfl⟩ := List.getElem?_eq_some_iff.mp hl
  have hsplit : s.finish = s.finish.take i ++ s.finish[i] :: s.finish.drop (i + 1) := by
    rw [← List.drop_eq_getElem_cons hlt, List.take_append_drop]
  have hsuffix : s.finish[i] :: (s.finish.take i).reverse <:+ s.endWord.endLine.lines := by
    rw [← List.reverse_reverse s.endWord.endLine.lines]
    show _ <:+ s.finish.reverse
    conv_rhs => rw [hsplit]
    rw [List.reverse_append, List.reverse_cons, List.append_assoc]
    exact List.suffix_append _ _
  have hnumber := h.endWord.lines_endLine _ _ hsuffix
  rw [List.reverse_reverse] at hnumber
  exact hnumber

end Scan

/-! ## the lines of a source -/

theorem charsOf_cons (line : Line) (lines : List Line) :
    charsOf (line :: lines) = line.tokens.flatMap String.toList ++ charsOf lines := by
  rw [charsOf, List.flatMap_cons, List.flatMap_append]
  rfl

theorem Line.IsScanned.head?_charsOf {line : Line} (h : line.IsScanned) (lines : List Line) :
    (charsOf (line :: lines)).head? = line.first.toList.head? := by
  obtain ⟨t, ts, hts⟩ := List.exists_cons_of_ne_nil h.ne_nil
  have hfirst : line.first = t := by
    rw [Line.first, Line.token, hts]
    rfl
  have hne : t.toList ≠ [] := by
    rw [ne_eq, String.toList_eq_nil_iff]
    exact h.ne_empty_of_mem (by rw [hts]; exact List.mem_cons_self)
  obtain ⟨c, cs, hcs⟩ := List.exists_cons_of_ne_nil hne
  rw [charsOf_cons, hts, List.flatMap_cons, hfirst, hcs]
  rfl

/-- the character of a source with which its line at place `i` begins, and the place of the character;
before it are the characters of the lines before -/
def lineOrigin (source : String) (i : Nat) : Option (Char × Nat) :=
  (origins source.toList)[(charsOf ((Line.ofSource source).take i)).length]?

section
variable {source : String} {i j : Nat} {line line' : Line}

theorem lineOrigin_eq_some (hl : (Line.ofSource source)[i]? = some line) :
    ∃ c p, lineOrigin source i = some (c, p) ∧ source.toList[p]? = some c ∧
      line.first.toList.head? = some c ∧ line.number = 1 + (source.toList.take p).count '\n' := by
  obtain ⟨⟨c, p⟩, hx, hn⟩ := (Scan.numbered_foldl source.toList).finish hl
  refine ⟨c, p, hx, getElem?_of_mem_origins (List.mem_of_getElem? hx), ?_, hn⟩
  have hscanned : line.IsScanned := Line.isScanned_of_mem (List.mem_of_getElem? hl)
  obtain ⟨hlt, rfl⟩ := List.getElem?_eq_some_iff.mp hl
  have hchars : charsOf ((Line.ofSource source).take i) ++
      charsOf ((Line.ofSource source)[i] :: (Line.ofSource source).drop (i + 1)) =
        (origins source.toList).map Prod.fst := by
    rw [← charsOf_append, ← List.drop_eq_getElem_cons hlt, List.take_append_drop, charsOf_ofSource]
  have hat := congrArg (fun cs => cs[(charsOf ((Line.ofSource source).take i)).length]?) hchars
  rw [List.getElem?_append_right (Nat.le_refl _), Nat.sub_self, List.getElem?_map] at hat
  rw [← hscanned.head?_charsOf ((Line.ofSource source).drop (i + 1)), List.head?_eq_getElem?, hat]
  exact congrArg (Option.map Prod.fst) hx

/-- a line does not begin before the lines that come before it -/
theorem place_le_of_lineOrigin {c c' : Char} {p p' : Nat} (h : i ≤ j)
    (hi : lineOrigin source i = some (c, p)) (hj : lineOrigin source j = some (c', p')) : p ≤ p' := by
  have hk : (charsOf ((Line.ofSource source).take i)).length ≤
      (charsOf ((Line.ofSource source).take j)).length :=
    (((List.take_isPrefix_take.mpr (.inl h)).flatMap Line.tokens).flatMap String.toList).length_le
  obtain ⟨hlt, hat⟩ := List.getElem?_eq_some_iff.mp hi
  obtain ⟨hlt', hat'⟩ := List.getElem?_eq_some_iff.mp hj
  rcases Nat.lt_or_eq_of_le hk with hk | hk
  · have hplace := List.pairwise_iff_getElem.mp (pairwise_origins source.toList) _ _ hlt hlt' hk
    rw [hat, hat'] at hplace
    exact Nat.le_of_lt hplace
  · rw [lineOrigin, hk] at hi
    rw [lineOrigin, hi] at hj
    exact Nat.le_of_eq (Prod.mk.inj (Option.some.inj hj)).2

theorem number_le_of_le (h : i ≤ j) (hi : (Line.ofSource source)[i]? = some line)
    (hj : (Line.ofSource source)[j]? = some line') : line.number ≤ line'.number := by
  obtain ⟨c, p, hp, -, -, hn⟩ := lineOrigin_eq_some hi
  obtain ⟨c', p', hp', -, -, hn'⟩ := lineOrigin_eq_some hj
  rw [hn, hn']
  exact Nat.add_le_add_left
    ((List.take_sublist_take_left (place_le_of_lineOrigin h hp hp')).count_le '\n') 1

end

/-- the number of a line is that of the source line on which its first character stands; so the lines
have numbers of lines of the source, and in its order -/
theorem Line.ofSource_numbered (source : String) :
    (∀ i line, (Line.ofSource source)[i]? = some line →
      ∃ c p, lineOrigin source i = some (c, p) ∧ source.toList[p]? = some c ∧
        line.first.toList.head? = some c ∧ line.number = 1 + (source.toList.take p).count '\n') ∧
    (∀ line ∈ Line.ofSource source,
      1 ≤ line.number ∧ line.number ≤ 1 + source.toList.count '\n') ∧
    (Line.ofSource source).Pairwise fun line line' => line.number ≤ line'.number := by
  refine ⟨fun i line hl => lineOrigin_eq_some hl, fun line hmem => ?_, ?_⟩
  · obtain ⟨i, hl⟩ := List.getElem?_of_mem hmem
    obtain ⟨c, p, -, -, -, hn⟩ := lineOrigin_eq_some hl
    rw [hn]
    exact ⟨Nat.le_add_right _ _,
      Nat.add_le_add_left ((List.take_sublist p _).count_le '\n') 1⟩
  · refine List.pairwise_iff_getElem.mpr fun i j hi hj hlt => ?_
    exact number_le_of_le (Nat.le_of_lt hlt) (List.getElem?_eq_getElem hi) (List.getElem?_eq_getElem hj)

/-- newlines count in a string too, and a brace stands on its own source line -/
example : let source := "a = \"x\n\ny\" \x7b b\n\x7d"
    (Line.ofSource source).map Line.number = [1, 3, 4] ∧
      (List.range 3).map (lineOrigin source) = [some ('a', 0), some ('b', 13), some ('}', 15)] := by
  decide +kernel

end Markup
