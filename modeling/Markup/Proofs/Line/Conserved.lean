import Markup.Proofs.Line.Layout
import Mathlib.Data.List.Induction

/-!
# What becomes of the characters of a source

Outside strings blanks and terminators are dropped; every other character is in exactly one token, and
the tokens have the characters in the order of the source (`Line.ofSource_conserved`).  A scan holds
what it has read in three places, the complete lines, the complete tokens of a line and the token being
read, and a step moves characters from one to the next but changes their order nowhere
(`Scan.gathered_step`).

* `isQuotedAt`, `isDropped`   the characters in strings, and those that are dropped elsewhere;
* `origins`                    the characters that are not dropped, each with its place;
* `Scan.gathered`              what a scan has read and not dropped.
-/

namespace Markup

/-! ## the characters that are not dropped -/

/-- the character at place `i` lies in a string: an odd number of quotes are before it -/
def isQuotedAt (cs : List Char) (i : Nat) : Bool := decide ((cs.take i).count '"' % 2 = 1)

/-- a character that is dropped outside strings -/
def isDropped (c : Char) : Bool := [' ', '\t', '\n', '\r', ';'].contains c

/-- the characters that are not dropped, each with its place -/
def origins (cs : List Char) : List (Char × Nat) :=
  cs.zipIdx.filter fun x => isQuotedAt cs x.2 || !isDropped x.1

/-- the characters of the tokens of some lines -/
def charsOf (lines : List Line) : List Char := (lines.flatMap Line.tokens).flatMap String.toList

theorem isDropped_eq (c : Char) :
    isDropped c = (CharClass.of c == .blank || CharClass.of c == .terminator) := by
  rw [Bool.eq_iff_iff, isDropped, List.contains_iff_mem, Bool.or_eq_true, beq_iff_eq, beq_iff_eq,
    CharClass.of_eq_blank, CharClass.of_eq_terminator]
  simp only [List.mem_cons, List.not_mem_nil, or_false, or_assoc]

/-- what comes behind a character has no influence on whether it is dropped -/
theorem isQuotedAt_append {cs : List Char} {i : Nat} (h : i ≤ cs.length) (ds : List Char) :
    isQuotedAt (cs ++ ds) i = isQuotedAt cs i := by
  rw [isQuotedAt, List.take_append_of_le_length h]
  rfl

theorem origins_concat (cs : List Char) (c : Char) :
    origins (cs ++ [c]) =
      origins cs ++ if isQuotedAt cs cs.length || !isDropped c then [(c, cs.length)] else [] := by
  have hfirst : cs.zipIdx.filter (fun x => isQuotedAt (cs ++ [c]) x.2 || !isDropped x.1) =
      origins cs := by
    refine List.filter_congr fun x hx => ?_
    have hlt : x.2 < cs.length := List.snd_lt_of_mem_zipIdx hx
    rw [isQuotedAt_append (Nat.le_of_lt hlt)]
  rw [origins, List.zipIdx_append, List.filter_append, hfirst, List.zipIdx_singleton, Nat.zero_add,
    List.filter_cons, List.filter_nil, isQuotedAt_append (Nat.le_refl _)]

/-- characters are taken from left to right, and none of them twice -/
theorem pairwise_origins (cs : List Char) : (origins cs).Pairwise fun x y => x.2 < y.2 := by
  refine List.Pairwise.filter _ ?_
  rw [← List.pairwise_map, List.zipIdx_map_snd]
  exact List.pairwise_lt_range'

theorem charsOf_append (lines lines' : List Line) :
    charsOf (lines ++ lines') = charsOf lines ++ charsOf lines' := by
  rw [charsOf, List.flatMap_append, List.flatMap_append]
  rfl

/-! ## the characters of a scan -/

namespace Scan

/-- the characters that have been read and not dropped, in the order of the source -/
def gathered (s : Scan) : List Char :=
  charsOf s.lines.reverse ++ s.tokens.reverse.flatMap String.toList ++ s.word.reverse

variable {s : Scan}

theorem gathered_endWord (s : Scan) : s.endWord.gathered = s.gathered := by
  by_cases h : s.word = []
  · rw [endWord_of_nil h]
  · rw [endWord_of_ne_nil h]
    simp [gathered]

theorem gathered_endLine (s : Scan) : s.endLine.gathered = s.gathered := by
  unfold endLine
  split
  · rfl
  · next t ts hts => simp [gathered, charsOf, hts]

theorem gathered_begin (s : Scan) : s.begin.gathered = s.gathered := rfl

theorem gathered_push (s : Scan) (c : Char) : (s.push c).gathered = s.gathered ++ [c] := by
  simp [gathered, push]

theorem gathered_pushToken (h : s.word = []) (token : String) :
    (s.pushToken token).gathered = s.gathered ++ token.toList := by
  simp [gathered, pushToken, h]

theorem gathered_pushLine (hw : s.word = []) (ht : s.tokens = []) (tokens : List String) :
    (s.pushLine tokens).gathered = s.gathered ++ tokens.flatMap String.toList := by
  simp [gathered, pushLine, charsOf, hw, ht]

theorem gathered_count (s : Scan) (c : Char) : (s.count c).gathered = s.gathered := by
  obtain ⟨hl, ht, hw, -⟩ := count_eq s c
  rw [gathered, hl, ht, hw]
  rfl

theorem gathered_stepQuoted (s : Scan) (c : Char) :
    (s.stepQuoted c).gathered = s.gathered ++ [c] := by
  unfold stepQuoted
  cases CharClass.of c with
  | quote =>
    show (s.push c).endWord.gathered = _
    rw [gathered_endWord, gathered_push]
  | blank | terminator | opener | closer | operator | word => exact gathered_push s c

theorem gathered_stepPlain (s : Scan) (c : Char) :
    (s.stepPlain c).gathered = s.gathered ++ if isDropped c then [] else [c] := by
  have hword : s.endWord.word = [] := word_endWord s
  rw [isDropped_eq, stepPlain]
  cases hc : CharClass.of c with
  | quote =>
    show (s.endWord.begin.push c).gathered = s.gathered ++ [c]
    rw [gathered_push, gathered_begin, gathered_endWord]
  | blank =>
    show s.endWord.gathered = s.gathered ++ []
    rw [gathered_endWord, List.append_nil]
  | terminator =>
    show s.endWord.endLine.gathered = s.gathered ++ []
    rw [gathered_endLine, gathered_endWord, List.append_nil]
  | opener =>
    show (s.endWord.pushToken blockOpen).endLine.gathered = s.gathered ++ [c]
    rw [gathered_endLine, gathered_pushToken hword, gathered_endWord, CharClass.of_eq_opener.mp hc]
    rfl
  | closer =>
    show (s.endWord.endLine.pushLine [blockClose]).gathered = s.gathered ++ [c]
    rw [gathered_pushLine ((word_endLine _).trans hword) (tokens_endLine _), gathered_endLine,
      gathered_endWord, CharClass.of_eq_closer.mp hc]
    rfl
  | operator =>
    show (s.endWord.begin.pushToken (String.singleton c)).gathered = s.gathered ++ [c]
    rw [gathered_pushToken (s := s.endWord.begin) hword, gathered_begin, gathered_endWord,
      String.toList_singleton]
  | word =>
    show (s.begin.push c).gathered = s.gathered ++ [c]
    rw [gathered_push, gathered_begin]

theorem gathered_step (s : Scan) (c : Char) :
    (s.step c).gathered = s.gathered ++ if s.quoted || !isDropped c then [c] else [] := by
  cases hq : s.quoted with
  | true =>
    rw [step_of_quoted hq, gathered_stepQuoted, gathered_count]
    rfl
  | false =>
    rw [step_of_not_quoted hq, gathered_stepPlain, gathered_count]
    cases isDropped c <;> rfl

theorem gathered_foldl (cs : List Char) :
    (cs.foldl step {}).gathered = (origins cs).map Prod.fst := by
  induction cs using List.reverseRecOn with
  | nil => rfl
  | append_singleton cs c ih =>
    have hquoted : (cs.foldl step {}).quoted = isQuotedAt cs cs.length := by
      rw [quoted_foldl, isQuotedAt, List.take_length]
      exact Bool.false_xor _
    rw [List.foldl_append, List.foldl_cons, List.foldl_nil, gathered_step, ih, hquoted, origins_concat,
      List.map_append]
    cases isQuotedAt cs cs.length || !isDropped c <;> rfl

theorem charsOf_finish (s : Scan) : charsOf s.finish = s.gathered := by
  have hword : s.endWord.endLine.word = [] := (word_endLine _).trans (word_endWord s)
  have hgathered : s.endWord.endLine.gathered = s.gathered := by
    rw [gathered_endLine, gathered_endWord]
  rw [← hgathered, gathered, tokens_endLine, hword]
  simp [finish]

end Scan

/-! ## the lines of a source -/

theorem charsOf_ofSource (source : String) :
    charsOf (Line.ofSource source) = (origins source.toList).map Prod.fst := by
  rw [Line.ofSource, Scan.charsOf_finish, Scan.gathered_foldl]

/-- the tokens of a source, one behind the other, are the source without the blanks and terminators
outside its strings -/
theorem Line.ofSource_conserved (source : String) :
    String.join ((Line.ofSource source).flatMap Line.tokens) =
      String.ofList ((origins source.toList).map Prod.fst) := by
  rw [← charsOf_ofSource, charsOf, ← String.toList_join, String.ofList_toList]

end Markup
