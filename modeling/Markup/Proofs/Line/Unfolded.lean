import Mathlib.Data.List.SplitBy
import Markup.Proofs.Line.Groups
import Markup.Proofs.Line.Run

/-!
# Groups that are read again

The text of a group is read as the tokens of the group, but for words that are written with nothing
between them: these are read as one word (`tokensOf_groupText`).  A space stands between two words
only if each has a letter, a digit or a point, so `(_ _)` is written as `(__)`.  A folded line whose
groups are read again gives the tokens of the line just if no group has two such words side by side
(`Line.reread_folded`).

* `runTogether`         words that are written with nothing between them;
* `Scan.IsBehind`       a scan behind a token, which can go on if it is a word;
* `Piece.reread`        the tokens of a piece, those of a group from its text.
-/

namespace Markup

/-! ## words side by side -/

/-- words that a group has with nothing between them -/
def runTogether (t u : String) : Bool :=
  decide (IsWord t ∧ IsWord u) && !(t.toList.any isWordlike && u.toList.any isWordlike)

theorem runTogether_eq_true {t u : String} :
    runTogether t u = true ↔
      (IsWord t ∧ IsWord u) ∧ (t.toList.any isWordlike && u.toList.any isWordlike) = false := by
  rw [runTogether, Bool.and_eq_true, decide_eq_true_iff, Bool.not_eq_true']

theorem IsWord.append {t u : String} (ht : IsWord t) (hu : IsWord u) : IsWord (t ++ u) := by
  refine ⟨fun h => ht.1 ?_, fun c hc => ?_⟩
  · rw [String.toList_append] at h
    exact (List.append_eq_nil_iff.mp h).1
  · rw [String.toList_append] at hc
    exact (List.mem_append.mp hc).elim (ht.2 c) (hu.2 c)

/-- a token and what is written behind it -/
def written (t : String) : String := t ++ if t = "," then " " else ""

theorem textAfter_cons (afterWord : Bool) (t : String) (ts : List String) :
    textAfter afterWord (t :: ts) =
      (if t.toList.any isWordlike && afterWord then " " else "") ++ written t ++
        textAfter (t.toList.any isWordlike) ts := by
  rw [textAfter, written]
  simp only [String.append_assoc]

theorem written_of_ne {t : String} (h : t ≠ ",") : written t = t := by
  rw [written, if_neg h, String.append_empty]

theorem IsWord.written_eq {t : String} (h : IsWord t) : written t = t := by
  refine written_of_ne ?_
  rintro rfl
  exact absurd h (by decide)

theorem written_of_runTogether {t u : String} (h : runTogether t u = true) :
    (if u.toList.any isWordlike && t.toList.any isWordlike then " " else "") ++ written u = u := by
  obtain ⟨⟨-, hu⟩, hspace⟩ := runTogether_eq_true.mp h
  rw [Bool.and_comm, hspace, hu.written_eq]
  exact String.empty_append

section
variable {α : Type} {r : α → α → Bool} {as bs : List α} {a b : α}

theorem isChain_concat_concat (h : (as ++ [a]).IsChain fun a b => r a b = true)
    (hr : r a b = true) : (as ++ [a] ++ [b]).IsChain fun a b => r a b = true := by
  rw [List.append_assoc]
  exact List.isChain_split.mpr ⟨h, List.isChain_pair.mpr hr⟩

theorem splitBy_concat_cons (h : (as ++ [a]).IsChain fun a b => r a b = true)
    (hr : r a b = false) :
    (as ++ [a] ++ b :: bs).splitBy r = (as ++ [a]) :: (b :: bs).splitBy r := by
  rw [List.splitBy_append_cons, List.splitBy_of_isChain (by simp) h, List.singleton_append]
  intro x hx
  rw [List.getLast?_concat, Option.mem_some_iff] at hx
  exact hx ▸ hr

end

/-! ## reading a group -/

namespace Scan

/-- a scan that has read some tokens and is behind one more: a word can go on, any other token is
complete -/
inductive IsBehind (s : Scan) (ts : List String) (t : String) : Prop
  | word (ht : IsWord t) (hword : s.word = t.toList.reverse) (h : HasRead { s with word := [] } ts)
  | complete (ht : ¬IsWord t) (h : s.HasRead (ts ++ [t]))

variable {s : Scan} {ts : List String} {t u : String}

theorem gathers_isWord (hu : IsWord u) (hq : s.quoted = false) :
    Gathers u.toList s (u.toList.foldl step s) :=
  gathers_foldl fun c hc _ he => gathers_word (hu.2 c hc) (he.trans hq)

theorem step_endWord (hq : s.quoted = false) {c : Char} (hc : CharClass.of c ≠ .word) :
    s.endWord.step c = s.step c := by
  have hend : (s.count c).endWord.endWord = (s.count c).endWord := endWord_of_nil (word_endWord _)
  rw [step_of_not_quoted hq, step_of_not_quoted ((quoted_endWord s).trans hq), ← endWord_count,
    stepPlain, stepPlain]
  cases h : CharClass.of c with
  | word => exact absurd h hc
  | quote | blank | terminator | opener | closer | operator => simp only [hend]

theorem HasRead.token (h : s.endWord.HasRead ts) (hu : IsWholeToken u) (hw : ¬IsWord u) :
    (u.toList.foldl step s).HasRead (ts ++ [u]) := by
  rcases hu with (hu | ⟨c, hc, rfl⟩ | hu) | rfl | rfl
  · exact absurd hu hw
  · rw [String.toList_singleton]
    exact h.operator hc
  · obtain ⟨ls, us, hs, rfl⟩ := h
    have hq : s.quoted = false := (quoted_endWord s).symm.trans hs.quoted
    obtain ⟨body, hb, he⟩ := hu
    have hstart : u.toList.foldl step s = u.toList.foldl step s.endWord := by
      rw [he, List.cons_append, List.foldl_cons, List.foldl_cons, step_endWord hq (by decide)]
    rw [hstart]
    exact ⟨ls, _, hs.quotation ⟨body, hb, he⟩, by simp⟩
  · exact h.opener (c := '\x7b') rfl
  · exact h.closer (c := '\x7d') rfl

theorem HasRead.behind (h : s.HasRead ts) (hu : IsWholeToken u) :
    (u.toList.foldl step s).IsBehind ts u := by
  by_cases hw : IsWord u
  · obtain ⟨ls, us, hs, rfl⟩ := h
    obtain ⟨hq, hword, hl, ht⟩ := gathers_isWord hw hs.quoted
    rw [hs.word, List.append_nil] at hword
    exact .word hw hword ⟨ls, us, ⟨hq.trans hs.quoted, rfl, hl ▸ hs.lines, ht.trans hs.tokens⟩, rfl⟩
  · exact .complete hw (h.endWord.token hu hw)

namespace IsBehind

theorem endWord (h : s.IsBehind ts t) : s.endWord.HasRead (ts ++ [t]) := by
  cases h with
  | word ht hword h =>
    obtain ⟨ls, us, hs, rfl⟩ := h
    have hne : s.word ≠ [] := by
      rw [hword]
      exact fun he => ht.1 (List.reverse_eq_nil_iff.mp he)
    refine ⟨ls, t :: us, ?_, by simp⟩
    rw [endWord_of_ne_nil hne, hword, List.reverse_reverse, String.ofList_toList]
    exact ⟨hs.quoted, rfl, hs.lines, congrArg _ hs.tokens⟩
  | complete _ h => exact h.endWord

theorem together (h : s.IsBehind ts t) (ht : IsWord t) (hu : IsWord u) :
    (u.toList.foldl step s).IsBehind ts (t ++ u) := by
  cases h with
  | word _ hword h =>
    obtain ⟨ls, us, hs, rfl⟩ := h
    obtain ⟨hq, hw, hl, htokens⟩ := gathers_isWord hu (s := s) hs.quoted
    refine .word (ht.append hu) ?_
      ⟨ls, us, ⟨hq.trans hs.quoted, rfl, hl ▸ hs.lines, htokens.trans hs.tokens⟩, rfl⟩
    rw [hw, hword, String.toList_append, List.reverse_append]
  | complete hno _ => exact absurd ht hno

theorem apart (h : s.IsBehind ts t) (hu : IsWholeToken u) (hno : ¬(IsWord t ∧ IsWord u)) :
    (u.toList.foldl step s).IsBehind (ts ++ [t]) u := by
  by_cases hw : IsWord u
  · cases h with
    | word ht _ _ => exact absurd ⟨ht, hw⟩ hno
    | complete _ h => exact h.behind hu
  · exact .complete hw (h.endWord.token hu hw)

theorem comma (h : (u.toList.foldl step s).IsBehind ts u) :
    ((written u).toList.foldl step s).IsBehind ts u := by
  by_cases hu : u = ","
  · subst hu
    have hw : ¬IsWord "," := by decide
    cases h with
    | word ht _ _ => exact absurd ht hw
    | complete _ h =>
      have hspace := HasRead.blank (c := ' ') h.endWord rfl
      rw [written, if_pos rfl, String.toList_append, List.foldl_append]
      exact .complete hw hspace
  · rw [written_of_ne hu]
    exact h

/-- the next token of a group stands by itself, behind a space or not -/
theorem next (h : s.IsBehind ts t) (hu : IsWholeToken u) {space : Bool}
    (hno : space = false → ¬(IsWord t ∧ IsWord u)) :
    (((if space then " " else "") ++ written u).toList.foldl step s).IsBehind (ts ++ [t]) u := by
  rw [String.toList_append, List.foldl_append]
  cases space with
  | false => exact (h.apart hu (hno rfl)).comma
  | true => exact ((HasRead.blank (c := ' ') h.endWord rfl).behind hu).comma

end IsBehind

/-- The tokens that follow a token in a group.  The scan is behind the word that the token ends,
`words` being the words before it that nothing sets apart from it. -/
theorem IsBehind.textAfter {words rest : List String}
    (h : s.IsBehind ts (String.join (words ++ [t])))
    (hwords : (words ++ [t]).IsChain fun t u => runTogether t u = true)
    (hw : IsWord (String.join (words ++ [t])) ↔ IsWord t) (hrest : ∀ u ∈ rest, IsWholeToken u) :
    ((textAfter (t.toList.any isWordlike) rest).toList.foldl step s).endWord.HasRead
      (ts ++ ((words ++ [t] ++ rest).splitBy runTogether).map String.join) := by
  induction rest generalizing s ts t words with
  | nil =>
    rw [List.append_nil, List.splitBy_of_isChain (by simp) hwords]
    exact h.endWord
  | cons u us ih =>
    obtain ⟨hu, hus⟩ := List.forall_mem_cons.mp hrest
    rw [textAfter_cons, String.toList_append, List.foldl_append]
    by_cases hrun : runTogether t u = true
    · -- the word goes on
      obtain ⟨ht, hword⟩ := (runTogether_eq_true.mp hrun).1
      have hjoin : String.join (words ++ [t] ++ [u]) = String.join (words ++ [t]) ++ u := by
        rw [String.join_append]
        simp
      have hbehind := h.together (hw.mpr ht) hword
      rw [← hjoin] at hbehind
      rw [written_of_runTogether hrun, List.append_cons]
      refine ih hbehind (isChain_concat_concat hwords hrun) ?_ hus
      rw [hjoin]
      exact iff_of_true ((hw.mpr ht).append hword) hword
    · -- another token begins
      rw [Bool.not_eq_true] at hrun
      have hno : (u.toList.any isWordlike && t.toList.any isWordlike) = false →
          ¬(IsWord (String.join (words ++ [t])) ∧ IsWord u) := by
        rintro hspace ⟨ht, hword⟩
        rw [Bool.and_comm] at hspace
        exact Bool.eq_false_iff.mp hrun (runTogether_eq_true.mpr ⟨⟨hw.mp ht, hword⟩, hspace⟩)
      have hbehind : Scan.IsBehind _ _ (String.join ([] ++ [u])) := h.next hu hno
      rw [splitBy_concat_cons hwords hrun, List.map_cons, List.append_cons]
      exact ih hbehind (List.isChain_singleton u) Iff.rfl hus

end Scan

/-- a group is read as its tokens, where words with nothing between them are one word -/
theorem tokensOf_groupText {run : List String} (h : ∀ t ∈ run, IsWholeToken t) :
    tokensOf (groupText run) = (run.splitBy runTogether).map String.join := by
  cases run with
  | nil => rfl
  | cons t ts =>
    obtain ⟨ht, hts⟩ := List.forall_mem_cons.mp h
    have hbehind : Scan.IsBehind _ [] (String.join ([] ++ [t])) :=
      (Scan.hasRead_start.behind ht).comma
    have hread := hbehind.textAfter (List.isChain_singleton t) Iff.rfl hts
    rw [← List.foldl_append, ← String.toList_append] at hread
    have htext : groupText (t :: ts) = written t ++ textAfter (t.toList.any isWordlike) ts := by
      rw [groupText, textAfter_cons, Bool.and_false]
      exact congrArg (· ++ _) String.empty_append
    rw [htext, tokensOf, Line.ofSource, hread.finish, List.nil_append]
    rfl

/-! ## words that are set apart -/

section
variable {α β : Type}

theorem splitBy_eq_map_singleton_iff {r : α → α → Bool} {l : List α} :
    l.splitBy r = l.map ([·]) ↔ l.IsChain fun a b => r a b = false := by
  rw [List.splitBy_eq_iff, List.isChain_map]
  constructor
  · rintro ⟨-, -, -, h⟩
    exact h.imp fun a b ⟨_, _, hr⟩ => hr
  · intro h
    refine ⟨?_, by simp, ?_, h.imp fun a b hr => ⟨List.cons_ne_nil _ _, List.cons_ne_nil _ _, hr⟩⟩
    · rw [← List.flatMap_def, List.flatMap_singleton']
    · intro m hm
      obtain ⟨a, -, rfl⟩ := List.mem_map.mp hm
      exact List.isChain_singleton a

theorem eq_map_singleton_of_length {ls : List (List α)} (hne : [] ∉ ls) :
    ls.length ≤ ls.flatten.length ∧
      (ls.length = ls.flatten.length → ls = ls.flatten.map ([·])) := by
  induction ls with
  | nil => exact ⟨Nat.le_refl 0, fun _ => rfl⟩
  | cons m ls ih =>
    obtain ⟨hle, heq⟩ := ih fun h => hne (List.mem_cons_of_mem m h)
    cases m with
    | nil => exact absurd List.mem_cons_self hne
    | cons a m =>
      rw [List.flatten_cons, List.length_append, List.length_cons, List.length_cons]
      refine ⟨by omega, fun h => ?_⟩
      obtain rfl : m = [] := List.eq_nil_of_length_eq_zero (by omega)
      have hlength : ls.length = ls.flatten.length := by
        rw [List.length_nil] at h
        omega
      rw [List.singleton_append, List.map_cons, ← heq hlength]

/-- lists none of which is longer than its counterpart are equal to these if they are together -/
theorem forall_eq_of_flatMap_eq {f g : α → List β} {l : List α}
    (hle : ∀ a ∈ l, (f a).length ≤ (g a).length) (h : l.flatMap f = l.flatMap g) :
    ∀ a ∈ l, f a = g a := by
  have hlength : ∀ {l : List α}, (∀ a ∈ l, (f a).length ≤ (g a).length) →
      (l.flatMap f).length ≤ (l.flatMap g).length := by
    intro l hle
    induction l with
    | nil => exact Nat.le_refl 0
    | cons a l ih =>
      obtain ⟨ha, hl⟩ := List.forall_mem_cons.mp hle
      rw [List.flatMap_cons, List.flatMap_cons, List.length_append, List.length_append]
      exact Nat.add_le_add ha (ih hl)
  induction l with
  | nil => exact fun a ha => absurd ha List.not_mem_nil
  | cons a l ih =>
    obtain ⟨ha, hl⟩ := List.forall_mem_cons.mp hle
    rw [List.flatMap_cons, List.flatMap_cons] at h
    have htotal := congrArg List.length h
    rw [List.length_append, List.length_append] at htotal
    have hrest := hlength hl
    obtain ⟨hfirst, hothers⟩ := List.append_inj h (by omega)
    exact List.forall_mem_cons.mpr ⟨hfirst, ih hl hothers⟩

end

/-- no word of the group is written right behind another one -/
def IsSetApart (run : List String) : Prop := run.IsChain fun t u => runTogether t u = false

instance (run : List String) : Decidable (IsSetApart run) :=
  inferInstanceAs (Decidable (run.IsChain fun t u => runTogether t u = false))

theorem length_joined_le (run : List String) :
    ((run.splitBy runTogether).map String.join).length ≤ run.length := by
  obtain ⟨hle, -⟩ := eq_map_singleton_of_length (List.nil_notMem_splitBy runTogether run)
  rwa [List.flatten_splitBy, ← List.length_map String.join] at hle

theorem joined_eq_iff {run : List String} :
    (run.splitBy runTogether).map String.join = run ↔ IsSetApart run := by
  rw [IsSetApart, ← splitBy_eq_map_singleton_iff]
  constructor
  · intro h
    obtain ⟨-, heq⟩ := eq_map_singleton_of_length (List.nil_notMem_splitBy runTogether run)
    rw [List.flatten_splitBy, ← List.length_map String.join] at heq
    exact heq (congrArg List.length h)
  · intro h
    rw [h, List.map_map]
    exact (List.map_congr_left fun t _ => by simp).trans (List.map_id run)

/-! ## lines of a source -/

/-- the tokens of a piece, those of a group from its text -/
def Piece.reread : Piece → List String
  | token t => [t]
  | group run => tokensOf (groupText run)

theorem IsFormatted.isTokenRun_of_mem {ls : List (List String)} (h : IsFormatted ls)
    {ts : List String} (ht : ts ∈ ls) : IsTokenRun ts := by
  induction h with
  | nil => exact absurd ht List.not_mem_nil
  | last h =>
    obtain ⟨init, q, hi, hq, rfl⟩ := h
    obtain rfl := List.mem_singleton.mp ht
    exact .cut (fun t ht => .inl (hi t ht)) hq
  | cons h _ ih =>
    rcases List.mem_cons.mp ht with rfl | ht
    · exact .whole h.isWholeToken
    · exact ih ht

/-- every token of a group is complete, the one with a partner behind it -/
theorem Line.isWholeToken_of_group {source : String} {line : Line} (h : line ∈ Line.ofSource source)
    {run : List String} (hrun : Piece.group run ∈ line.cursor.pieces) :
    ∀ t ∈ run, IsWholeToken t := by
  have hline : IsTokenRun line.tokens :=
    (Line.exists_ofSource_iff.mp ⟨source, rfl⟩).isTokenRun_of_mem (List.mem_map.mpr ⟨line, h, rfl⟩)
  have htokens : line.cursor.pieces.flatMap Piece.tokens = line.tokens :=
    Cursor.flatMap_tokens_pieces [] line.tokens line.number
  obtain ⟨inner, -, rfl⟩ := Cursor.exists_inner_of_mem_pieces hrun
  obtain ⟨before, behind, hsplit⟩ := List.append_of_mem hrun
  rw [← htokens, hsplit] at hline
  have hform : (before ++ Piece.group ("(" :: (inner ++ [")"])) :: behind).flatMap Piece.tokens =
      (before.flatMap Piece.tokens ++ "(" :: inner) ++ ")" :: behind.flatMap Piece.tokens := by
    simp [Piece.tokens]
  rw [hform] at hline
  have hwhole := hline.whole_of_append (List.cons_ne_nil _ _)
  intro t ht
  rw [← List.cons_append, List.mem_append, List.mem_singleton] at ht
  rcases ht with ht | rfl
  · exact hwhole t (List.mem_append_right _ ht)
  · exact .inl (.operator ⟨')', rfl, rfl⟩)

/-- A folded line of a source has a token for each piece of the line.  The text of a group is read as
the tokens of the group, where words with nothing between them are one word.  So the tokens of the line
come back from a folded line just if no word of a group is written right behind another one. -/
theorem Line.reread_folded {source : String} {line : Line} (h : line ∈ Line.ofSource source) :
    line.folded.tokens = line.cursor.pieces.map Piece.text ∧
      (∀ run, Piece.group run ∈ line.cursor.pieces →
        tokensOf (groupText run) = (run.splitBy runTogether).map String.join) ∧
      (line.cursor.pieces.flatMap Piece.reread = line.tokens ↔
        ∀ run, Piece.group run ∈ line.cursor.pieces → IsSetApart run) := by
  have htokens : line.cursor.pieces.flatMap Piece.tokens = line.tokens :=
    Cursor.flatMap_tokens_pieces [] line.tokens line.number
  have hread : ∀ run, Piece.group run ∈ line.cursor.pieces →
      tokensOf (groupText run) = (run.splitBy runTogether).map String.join :=
    fun run hrun => tokensOf_groupText (Line.isWholeToken_of_group h hrun)
  refine ⟨by rw [line.folded_eq], hread, ?_⟩
  rw [← htokens]
  constructor
  · intro hall run hrun
    have hle : ∀ piece ∈ line.cursor.pieces, piece.reread.length ≤ piece.tokens.length := by
      intro piece hpiece
      cases piece with
      | token t => exact Nat.le_refl 1
      | group run =>
        rw [Piece.reread, hread run hpiece]
        exact length_joined_le run
    have heq := forall_eq_of_flatMap_eq hle hall _ hrun
    rw [Piece.reread, hread run hrun] at heq
    exact joined_eq_iff.mp heq
  · intro hapart
    rw [List.flatMap_def, List.flatMap_def]
    refine congrArg _ (List.map_congr_left fun piece hpiece => ?_)
    cases piece with
    | token t => rfl
    | group run =>
      rw [Piece.reread, hread run hpiece]
      exact joined_eq_iff.mpr (hapart run hpiece)

/-- words with a letter, a string or a point are set apart, a question mark is not -/
theorem Line.reread_folded_menu :
    let line : Line := ⟨["(", "a", "1.5", ",", "\"s\"", ")", "(", "x", "?", "y", ")"], 1⟩
    line ∈ Line.ofSource "(a 1.5, \"s\") (x ? y);" ∧
      line.folded.tokens = ["(a 1.5, \"s\")", "(x?y)"] ∧
      tokensOf "(a 1.5, \"s\")" = ["(", "a", "1.5", ",", "\"s\"", ")"] ∧
      tokensOf "(x?y)" = ["(", "x?y", ")"] ∧
      line.cursor.pieces.flatMap Piece.reread ≠ line.tokens := by
  intro line
  have hsource : line ∈ Line.ofSource "(a 1.5, \"s\") (x ? y);" := by decide
  have hpieces : line.cursor.pieces =
      [.group ["(", "a", "1.5", ",", "\"s\"", ")"], .group ["(", "x", "?", "y", ")"]] := by
    show (Cursor.mk [] ("(" :: (["a", "1.5", ",", "\"s\""] ++ ")" ::
      "(" :: (["x", "?", "y"] ++ ")" :: []))) 1).pieces = _
    rw [Cursor.pieces_group rfl, Cursor.pieces_group rfl, Cursor.pieces_nil]
    rfl
  obtain ⟨hfolded, hread, hback⟩ := Line.reread_folded hsource
  rw [hpieces] at hfolded hread hback
  have hfirst := hread ["(", "a", "1.5", ",", "\"s\"", ")"] (by simp)
  have hsecond := hread ["(", "x", "?", "y", ")"] (by simp)
  refine ⟨hsource, ?_, ?_, ?_, ?_⟩
  · rw [hfolded]
    decide
  · exact hfirst.trans (by decide)
  · exact hsecond.trans (by decide)
  · rw [hpieces]
    intro h
    have hapart := hback.mp h ["(", "x", "?", "y", ")"] (by simp)
    exact absurd hapart (by decide)

/-- Two underscores have no space between them in a group, so they are read as one word. -/
theorem Line.reread_underscores :
    let line : Line := ⟨["(", "_", "_", ")"], 1⟩
    line ∈ Line.ofSource "(_ _)" ∧
      line.folded.tokens = ["(__)"] ∧
      (Line.ofSource "(__)").flatMap Line.tokens = ["(", "__", ")"] ∧
      line.cursor.pieces.flatMap Piece.reread ≠ line.tokens := by
  intro line
  have hpieces : line.cursor.pieces = [.group ["(", "_", "_", ")"]] := by
    show (Cursor.mk [] ("(" :: (["_", "_"] ++ ")" :: [])) 1).pieces = _
    rw [Cursor.pieces_group rfl, Cursor.pieces_nil]
    rfl
  refine ⟨by decide, ?_, by decide, ?_⟩
  · rw [line.folded_eq, hpieces]
    decide
  · rw [hpieces]
    decide

end Markup
