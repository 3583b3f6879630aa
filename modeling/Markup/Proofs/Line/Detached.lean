import Markup.Proofs.Line.Joined
import Mathlib.Data.List.Induction

/-!
# Openers on lines of their own

An opener ends the line that it stands on.  A terminator before it ends the line there, and the opener
is a line of its own; all other lines stay as they are (`Line.ofSource_detached`).

* `IsOpenerOf`         the place in a source of the opener that ends one of its lines;
* `exists_isOpenerOf`    every line that ends in an opener has such a place.
-/

namespace Markup

/-- the opener between `a` and `b` is the end of line `i` of the source -/
structure IsOpenerOf (source : String) (i : Nat) (a b : String) : Prop where
  source_eq : source = a ++ blockOpen ++ b
  lines_eq : Line.ofSource (a ++ blockOpen) = (Line.ofSource source).take (i + 1)

theorem endsOpen_of_textTokens {ts : List String} (h : ∀ t ∈ ts, IsTextToken t) (n : Nat) :
    Line.endsOpen ⟨ts, n⟩ = false := by
  rw [Line.endsOpen, beq_eq_false_iff_ne]
  intro he
  exact (h _ (List.mem_of_getLast? he)).ne_blockOpen rfl

theorem Line.endsOpen_of_tokens {line : Line} {ts : List String}
    (h : line.tokens = ts ++ [blockOpen]) : line.endsOpen = true := by
  rw [endsOpen, h, List.getLast?_concat]
  rfl

namespace Scan

variable {s t u : Scan}

/-! ## the lines that a step adds -/

/-- the scan `t` has read the lines of `s`, and behind them none that ends in an opener -/
def Grows (s t : Scan) : Prop :=
  ∃ new, t.lines = new ++ s.lines ∧ ∀ l ∈ new, l.endsOpen = false

theorem grows_of_lines_eq (h : t.lines = s.lines) : s.Grows t :=
  ⟨[], h, fun _ hl => absurd hl List.not_mem_nil⟩

theorem Grows.trans (h : s.Grows t) (h' : t.Grows u) : s.Grows u := by
  obtain ⟨new, hl, hnew⟩ := h
  obtain ⟨new', hl', hnew'⟩ := h'
  refine ⟨new' ++ new, ?_, List.forall_mem_append.mpr ⟨hnew', hnew⟩⟩
  rw [hl', hl, List.append_assoc]

theorem grows_endLine (h : ∀ t ∈ s.tokens, IsTextToken t) : s.Grows s.endLine := by
  unfold endLine
  split
  · exact grows_of_lines_eq rfl
  · next t ts hts =>
    rw [hts] at h
    refine ⟨[_], rfl, List.forall_mem_singleton.mpr (endsOpen_of_textTokens ?_ _)⟩
    intro t ht
    exact h t (List.mem_reverse.mp ht)

theorem Sound.grows_endLine (hs : s.Sound) : s.Grows s.endWord.endLine :=
  (grows_of_lines_eq (lines_endWord s)).trans (Scan.grows_endLine hs.textToken_of_mem_endWord)

theorem lines_opener (hq : s.quoted = false) : (s.step '{').lines =
    ⟨s.endWord.tokens.reverse ++ [blockOpen], s.endWord.start.getD s.endWord.number⟩ :: s.lines := by
  rw [step_opener hq]
  show ⟨(blockOpen :: s.endWord.tokens).reverse, _⟩ :: s.endWord.lines = _
  rw [List.reverse_cons, lines_endWord]
  rfl

theorem lines_terminator (hq : s.quoted = false) (hne : s.endWord.tokens ≠ []) :
    (s.step ';').lines =
      ⟨s.endWord.tokens.reverse, s.endWord.start.getD s.endWord.number⟩ :: s.lines := by
  rw [step_terminator hq, endLine]
  cases ht : s.endWord.tokens with
  | nil => exact absurd ht hne
  | cons t ts => rw [lines_endWord]

theorem Sound.grows_step (hs : s.Sound) {c : Char} (h : s.quoted = false → c ≠ '{') :
    s.Grows (s.step c) := by
  obtain ⟨hl, _, _, hcq⟩ := count_eq s c
  have hcount : s.Grows (s.count c) := grows_of_lines_eq hl
  cases hq : s.quoted with
  | true =>
    rw [step_of_quoted hq]
    refine hcount.trans (grows_of_lines_eq ?_)
    unfold Scan.stepQuoted
    cases CharClass.of c with
    | quote => exact lines_endWord ((s.count c).push c)
    | blank | terminator | opener | closer | operator | word => rfl
  | false =>
    rw [step_of_not_quoted hq]
    refine hcount.trans ?_
    have hline := (hs.count c).grows_endLine
    have hword : (s.count c).Grows (s.count c).endWord := grows_of_lines_eq (lines_endWord _)
    unfold Scan.stepPlain
    cases hc : CharClass.of c with
    | opener => exact absurd (CharClass.of_eq_opener.mp hc) (h hq)
    | quote | blank | operator => exact hword
    | terminator => exact hline
    | closer =>
      refine hline.trans ⟨[⟨[blockClose], _⟩], rfl, List.forall_mem_singleton.mpr ?_⟩
      show (some blockClose == some blockOpen) = false
      decide
    | word => exact grows_of_lines_eq rfl

theorem isIdle_opener (hq : s.quoted = false) : (s.step '{').IsIdle := by
  rw [step_opener hq]
  refine ⟨?_, ?_, tokens_endLine _⟩
  · rw [quoted_endLine]
    exact (quoted_endWord s).trans hq
  · rw [word_endLine]
    exact word_endWord s

/-- among the lines of a scan, one that ends in an opener is the last line of the scan up to there -/
theorem exists_opener (cs : List Char) {i : Nat} {line : Line}
    (hline : (cs.foldl step {}).lines.reverse[i]? = some line) (ho : line.endsOpen = true) :
    ∃ as bs, cs = as ++ '{' :: bs ∧ (as.foldl step {}).quoted = false ∧
      ((as ++ ['{']).foldl step {}).lines.reverse =
        (cs.foldl step {}).lines.reverse.take (i + 1) := by
  induction cs using List.reverseRecOn with
  | nil => exact absurd hline (by simp)
  | append_singleton cs c ih =>
    have hlast : (cs ++ [c]).foldl step {} = (cs.foldl step {}).step c := List.foldl_append ..
    rw [hlast] at hline ⊢
    have hold : ∀ new, ((cs.foldl step {}).step c).lines = new ++ (cs.foldl step {}).lines →
        i < (cs.foldl step {}).lines.length → ∃ as bs, cs ++ [c] = as ++ '{' :: bs ∧
          (as.foldl step {}).quoted = false ∧ ((as ++ ['{']).foldl step {}).lines.reverse =
            ((cs.foldl step {}).step c).lines.reverse.take (i + 1) := by
      intro new hnew hi
      rw [← List.length_reverse] at hi
      rw [hnew, List.reverse_append, List.getElem?_append_left hi] at hline
      obtain ⟨as, bs, hcs, hq, hlines⟩ := ih hline
      refine ⟨as, bs ++ [c], by rw [hcs]; simp, hq, ?_⟩
      rw [hnew, List.reverse_append, List.take_append_of_le_length hi, hlines]
    by_cases hc : (cs.foldl step {}).quoted = false ∧ c = '{'
    · obtain ⟨hq, rfl⟩ := hc
      have hlines := lines_opener hq
      by_cases hi : i < (cs.foldl step {}).lines.length
      · exact hold [_] hlines hi
      · refine ⟨cs, [], rfl, hq, ?_⟩
        rw [hlast, List.take_of_length_le]
        rw [List.length_reverse, hlines, List.length_cons]
        omega
    · obtain ⟨new, hnew, hends⟩ := (sound_start.foldl cs).grows_step fun hq he => hc ⟨hq, he⟩
      by_cases hi : i < (cs.foldl step {}).lines.length
      · exact hold new hnew hi
      · -- a line that is new does not end in an opener
        rw [← List.length_reverse] at hi
        rw [hnew, List.reverse_append, List.getElem?_append_right (Nat.le_of_not_lt hi)] at hline
        have hmem := List.mem_reverse.mp (List.mem_of_getElem? hline)
        rw [hends line hmem] at ho
        exact absurd ho Bool.false_ne_true

/-- a line of a source that ends in an opener has been read before the end -/
theorem Sound.lines_of_finish (hs : s.Sound) {i : Nat} {line : Line}
    (hline : s.finish[i]? = some line) (ho : line.endsOpen = true) :
    s.lines.reverse[i]? = some line ∧ s.finish.take (i + 1) = s.lines.reverse.take (i + 1) := by
  obtain ⟨new, hnew, hends⟩ := hs.grows_endLine
  rw [Scan.finish, hnew, List.reverse_append] at hline ⊢
  by_cases hi : i < s.lines.reverse.length
  · rw [List.getElem?_append_left hi] at hline
    exact ⟨hline, List.take_append_of_le_length hi⟩
  · rw [List.getElem?_append_right (Nat.le_of_not_lt hi)] at hline
    have hmem := List.mem_reverse.mp (List.mem_of_getElem? hline)
    rw [hends line hmem] at ho
    exact absurd ho Bool.false_ne_true

/-! ## an opener, and a terminator before it -/

section
variable {a : String} (hq : (ofText a).quoted = false)

theorem ofText_opener (a : String) : ofText (a ++ blockOpen) = (ofText a).step '{' := by
  rw [ofText_append]
  rfl

theorem ofText_detached (a : String) :
    ofText (a ++ ";\x7b") = ((ofText a).step ';').step '{' := by
  rw [ofText_append]
  rfl

include hq

theorem isIdle_ofText_opener : (ofText (a ++ blockOpen)).IsIdle := by
  rw [ofText_opener]
  exact isIdle_opener hq

theorem finish_opener : Line.ofSource (a ++ blockOpen) = (ofText a).lines.reverse ++
    [⟨(ofText a).endWord.tokens.reverse ++ [blockOpen],
      (ofText a).endWord.start.getD (ofText a).endWord.number⟩] := by
  show (ofText (a ++ blockOpen)).finish = _
  rw [finish_of_idle (isIdle_ofText_opener hq), ofText_opener, lines_opener hq, List.reverse_cons]

theorem quoted_terminator : ((ofText a).step ';').quoted = false := by
  rw [step_terminator hq, quoted_endLine, quoted_endWord, hq]

theorem isIdle_ofText_detached : (ofText (a ++ ";\x7b")).IsIdle := by
  rw [ofText_detached]
  exact isIdle_opener (quoted_terminator hq)

theorem exists_finish_detached (hne : (ofText a).endWord.tokens ≠ []) : ∃ m,
    Line.ofSource (a ++ ";\x7b") = (ofText a).lines.reverse ++
      [⟨(ofText a).endWord.tokens.reverse,
        (ofText a).endWord.start.getD (ofText a).endWord.number⟩, ⟨[blockOpen], m⟩] := by
  have htokens : ((ofText a).step ';').endWord.tokens = [] := by
    rw [step_terminator hq, endWord_of_nil, tokens_endLine]
    rw [word_endLine, word_endWord]
  refine ⟨((ofText a).step ';').endWord.start.getD ((ofText a).step ';').endWord.number, ?_⟩
  show (ofText (a ++ ";\x7b")).finish = _
  rw [finish_of_idle (isIdle_ofText_detached hq), ofText_detached,
    lines_opener (quoted_terminator hq), htokens, lines_terminator hq hne]
  simp

end

end Scan

/-! ## the place of an opener -/

section
variable {source : String} {i : Nat} {line : Line}

theorem exists_isOpenerOf (hline : (Line.ofSource source)[i]? = some line)
    (ho : line.endsOpen = true) : ∃ a b, IsOpenerOf source i a b := by
  have hs := Scan.sound_start.foldl source.toList
  obtain ⟨hread, htake⟩ := hs.lines_of_finish hline ho
  obtain ⟨as, bs, hcs, hq, hlines⟩ := Scan.exists_opener source.toList hread ho
  have hscan : Scan.ofText (String.ofList as ++ blockOpen) = (as ++ ['{']).foldl Scan.step {} := by
    rw [Scan.ofText, String.toList_append, String.toList_ofList]
    rfl
  refine ⟨String.ofList as, String.ofList bs, ?_, ?_⟩
  · rw [← String.toList_inj, String.toList_append, String.toList_append, String.toList_ofList,
      String.toList_ofList, hcs]
    show _ = as ++ ['{'] ++ bs
    simp
  · have hidle : (Scan.ofText (String.ofList as ++ blockOpen)).IsIdle := by
      rw [hscan, List.foldl_append]
      exact Scan.isIdle_opener hq
    show (Scan.ofText (String.ofList as ++ blockOpen)).finish = _
    rw [Scan.finish_of_idle hidle, hscan, hlines]
    exact htake.symm

variable {a b : String}

theorem IsOpenerOf.quoted (h : IsOpenerOf source i a b)
    (hline : (Line.ofSource source)[i]? = some line) (ho : line.endsOpen = true) :
    (Scan.ofText a).quoted = false := by
  obtain ⟨hi, _⟩ := List.getElem?_eq_some_iff.mp hline
  have hlast : (Line.ofSource (a ++ blockOpen))[i]? = some line := by
    rw [h.lines_eq, List.getElem?_take_of_lt (Nat.lt_succ_self i)]
    exact hline
  have hlength : (Line.ofSource (a ++ blockOpen)).length = i + 1 := by
    rw [h.lines_eq, List.length_take]
    omega
  obtain ⟨hread, _⟩ := (Scan.sound_start.foldl (a ++ blockOpen).toList).lines_of_finish hlast ho
  obtain ⟨hlt, _⟩ := List.getElem?_eq_some_iff.mp hread
  refine Bool.eq_false_iff.mpr fun hq => ?_
  -- in a string the opener is part of a token, which the end of the source makes one more line
  have hstep : Scan.ofText (a ++ blockOpen) = (Scan.ofText a).push '{' := by
    rw [Scan.ofText_opener, Scan.step_of_quoted hq]
    rfl
  have hmore : (Line.ofSource (a ++ blockOpen)).length =
      (Scan.ofText (a ++ blockOpen)).lines.length + 1 := by
    show (Scan.ofText (a ++ blockOpen)).finish.length = _
    rw [hstep]
    show ((Scan.ofText a).push '{').endWord.endLine.lines.reverse.length = _
    rw [List.length_reverse]
    rfl
  rw [List.length_reverse] at hlt
  have hle : i < (Scan.ofText (a ++ blockOpen)).lines.length := hlt
  omega

/-- a terminator before its opener cuts a line in two -/
theorem Line.ofSource_detached (h : IsOpenerOf source i a b)
    (hline : (Line.ofSource source)[i]? = some line) {ts : List String} (hne : ts ≠ [])
    (ht : line.tokens = ts ++ [blockOpen]) :
    ∃ before rest n m, before.length = i ∧
      Line.ofSource source = before ++ ⟨ts ++ [blockOpen], n⟩ :: rest ∧
      Line.ofSource (a ++ ";\x7b" ++ b) = before ++ ⟨ts, n⟩ :: ⟨[blockOpen], m⟩ :: rest := by
  have hq := h.quoted hline (Line.endsOpen_of_tokens ht)
  have hbefore := Scan.finish_opener hq
  have hsource := Line.ofSource_append (Scan.isIdle_ofText_opener hq) b
  rw [← h.source_eq, hbefore, List.append_assoc, List.singleton_append] at hsource
  have hi : (Scan.ofText a).lines.reverse.length = i := by
    obtain ⟨hlt, _⟩ := List.getElem?_eq_some_iff.mp hline
    have hlength := congrArg List.length (hbefore.symm.trans h.lines_eq)
    rw [List.length_append, List.length_singleton, List.length_take] at hlength
    omega
  have htokens : (Scan.ofText a).endWord.tokens.reverse = ts := by
    rw [hsource, List.getElem?_append_right (Nat.le_of_eq hi), hi, Nat.sub_self] at hline
    have he : Line.mk _ _ = line := Option.some.inj hline
    rw [← he] at ht
    exact List.append_cancel_right ht
  obtain ⟨m, hbefore'⟩ := Scan.exists_finish_detached hq fun he => hne (by rw [← htokens, he]; rfl)
  have hdetached := Line.ofSource_append (Scan.isIdle_ofText_detached hq) b
  have hnewlines : newlines (a ++ ";\x7b") = newlines (a ++ blockOpen) := by
    simp [newlines, blockOpen]
  rw [hbefore', hnewlines, List.append_assoc, List.cons_append, List.singleton_append] at hdetached
  rw [htokens] at hsource hdetached
  exact ⟨_, _, _, m, hi, hsource, hdetached⟩

end
end Markup
