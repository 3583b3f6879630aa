import Markup.Proofs.Line.Sentence

/-!
# Sources that are joined

A scan that is between two statements goes on as a scan that begins, apart from what it has read and
from the number of the source line.  So the lines of two sources, one behind the other, are the lines
of the first and then those of the second, lowered by the newlines of the first
(`Line.ofSource_append`).

* `Scan.behind`      a scan with lines before it and source lines above it;
* `Scan.IsIdle`      a scan that is between two statements;
* `Scan.idle_eq`     it is the scan that begins, behind what has been read.
-/

namespace Markup

/-- the line, `n` source lines further down -/
def Line.lowered (n : Nat) (line : Line) : Line := { line with number := line.number + n }

def newlines (text : String) : Nat := text.toList.count '\n'

namespace Scan

/-- the scan of a text that has not ended -/
def ofText (text : String) : Scan := text.toList.foldl step {}

theorem ofText_append (a b : String) : ofText (a ++ b) = b.toList.foldl step (ofText a) := by
  rw [ofText, String.toList_append, List.foldl_append]
  rfl

/-! ## behind other lines -/

/-- the scan with these lines before its own, latest first, and `n` source lines above it -/
def behind (before : List Line) (n : Nat) (s : Scan) : Scan :=
  { s with
    lines := s.lines.map (Line.lowered n) ++ before
    number := s.number + n
    start := s.start.map (· + n) }

section
variable (before : List Line) (n : Nat) (s : Scan)

theorem quoted_behind : (s.behind before n).quoted = s.quoted := rfl

theorem endWord_behind : (s.behind before n).endWord = s.endWord.behind before n := by
  by_cases h : s.word = []
  · rw [endWord_of_nil h, endWord_of_nil (s := s.behind before n) h]
  · rw [endWord_of_ne_nil h, endWord_of_ne_nil (s := s.behind before n) h]
    rfl

theorem begin_behind : (s.behind before n).begin = s.begin.behind before n := by
  show { s.behind before n with start := some ((s.start.map (· + n)).getD (s.number + n)) } = _
  cases h : s.start <;> simp [begin, behind, h]

theorem endLine_behind : (s.behind before n).endLine = s.endLine.behind before n := by
  unfold endLine
  cases h : s.tokens with
  | nil => simp [behind, h]
  | cons t ts =>
    cases hs : s.start <;> simp [behind, h, hs, Line.lowered]

theorem pushLine_behind (tokens : List String) :
    (s.behind before n).pushLine tokens = (s.pushLine tokens).behind before n := rfl

theorem count_behind (c : Char) : (s.behind before n).count c = (s.count c).behind before n := by
  unfold count
  split
  · show { s.behind before n with number := s.number + n + 1 } = _
    rw [Nat.add_right_comm]
    rfl
  · rfl

theorem stepQuoted_behind (c : Char) :
    (s.behind before n).stepQuoted c = (s.stepQuoted c).behind before n := by
  unfold stepQuoted
  cases CharClass.of c with
  | quote =>
    show { ((s.push c).behind before n).endWord with quoted := false } = _
    rw [endWord_behind]
    rfl
  | blank | terminator | opener | closer | operator | word => rfl

theorem stepPlain_behind (c : Char) :
    (s.behind before n).stepPlain c = (s.stepPlain c).behind before n := by
  unfold stepPlain
  rw [endWord_behind]
  cases CharClass.of c with
  | quote =>
    show { (s.endWord.behind before n).begin.push c with quoted := true } = _
    rw [begin_behind]
    rfl
  | blank => rfl
  | terminator => exact endLine_behind before n s.endWord
  | opener => exact endLine_behind before n (s.endWord.pushToken blockOpen)
  | closer =>
    show (s.endWord.behind before n).endLine.pushLine [blockClose] = _
    rw [endLine_behind, pushLine_behind]
  | operator =>
    show (s.endWord.behind before n).begin.pushToken (String.singleton c) = _
    rw [begin_behind]
    rfl
  | word =>
    show (s.behind before n).begin.push c = _
    rw [begin_behind]
    rfl

theorem step_behind (c : Char) : (s.behind before n).step c = (s.step c).behind before n := by
  unfold step
  rw [quoted_behind, count_behind, stepQuoted_behind, stepPlain_behind]
  split <;> rfl

theorem foldl_behind (cs : List Char) :
    cs.foldl step (s.behind before n) = (cs.foldl step s).behind before n := by
  induction cs generalizing s with
  | nil => rfl
  | cons c cs ih => rw [List.foldl_cons, List.foldl_cons, step_behind, ih]

theorem finish_behind :
    (s.behind before n).finish = before.reverse ++ s.finish.map (Line.lowered n) := by
  rw [finish, endWord_behind, endLine_behind]
  show (s.endWord.endLine.lines.map (Line.lowered n) ++ before).reverse = _
  rw [List.reverse_append, ← List.map_reverse]
  rfl

end

/-! ## between statements -/

/-- a scan that is between two statements -/
structure IsIdle (s : Scan) : Prop where
  quoted : s.quoted = false
  word : s.word = []
  tokens : s.tokens = []

/-- a statement without tokens has not begun -/
def BeginsAtToken (s : Scan) : Prop := s.word = [] → s.tokens = [] → s.start = none

variable {s : Scan}

theorem start_endLine (s : Scan) : s.endLine.start = none := by
  unfold endLine
  split <;> rfl

theorem tokens_ne_nil_of_endWord (h : s.word ≠ []) : s.endWord.tokens ≠ [] := by
  rw [endWord_of_ne_nil h]
  exact List.cons_ne_nil _ _

theorem BeginsAtToken.endWord (h : s.BeginsAtToken) : s.endWord.BeginsAtToken := by
  by_cases hw : s.word = []
  · rw [endWord_of_nil hw]
    exact h
  · exact fun _ ht => absurd ht (tokens_ne_nil_of_endWord hw)

theorem beginsAtToken_of_start (h : s.start = none) : s.BeginsAtToken := fun _ _ => h

theorem beginsAtToken_of_word (h : s.word ≠ []) : s.BeginsAtToken := fun hw => absurd hw h

theorem BeginsAtToken.stepQuoted (c : Char) : (s.stepQuoted c).BeginsAtToken := by
  have hne : (s.push c).word ≠ [] := List.cons_ne_nil c s.word
  unfold Scan.stepQuoted
  cases CharClass.of c with
  | quote => exact fun _ ht => absurd ht (tokens_ne_nil_of_endWord hne)
  | blank | terminator | opener | closer | operator | word => exact beginsAtToken_of_word hne

theorem BeginsAtToken.stepPlain (h : s.BeginsAtToken) (c : Char) :
    (s.stepPlain c).BeginsAtToken := by
  unfold Scan.stepPlain
  cases CharClass.of c with
  | quote | word => exact beginsAtToken_of_word (List.cons_ne_nil c _)
  | blank => exact h.endWord
  | terminator | opener | closer => exact beginsAtToken_of_start (start_endLine _)
  | operator => exact fun _ ht => absurd ht (List.cons_ne_nil _ _)

theorem BeginsAtToken.step (h : s.BeginsAtToken) (c : Char) : (s.step c).BeginsAtToken := by
  have hc : (s.count c).BeginsAtToken := by
    unfold Scan.count
    split <;> exact h
  unfold Scan.step
  split
  · exact BeginsAtToken.stepQuoted c
  · exact hc.stepPlain c

theorem BeginsAtToken.foldl (h : s.BeginsAtToken) (cs : List Char) :
    (cs.foldl Scan.step s).BeginsAtToken := by
  induction cs generalizing s with
  | nil => exact h
  | cons c cs ih => exact ih (h.step c)

/-! ### the number of the source line -/

theorem number_endWord (s : Scan) : s.endWord.number = s.number := by
  unfold endWord
  split <;> rfl

theorem number_endLine (s : Scan) : s.endLine.number = s.number := by
  unfold endLine
  split <;> rfl

theorem number_stepQuoted (s : Scan) (c : Char) : (s.stepQuoted c).number = s.number := by
  unfold stepQuoted
  cases CharClass.of c with
  | quote => exact number_endWord (s.push c)
  | blank | terminator | opener | closer | operator | word => rfl

theorem number_stepPlain (s : Scan) (c : Char) : (s.stepPlain c).number = s.number := by
  unfold stepPlain
  cases CharClass.of c with
  | quote | blank | operator => exact number_endWord s
  | terminator => exact (number_endLine s.endWord).trans (number_endWord s)
  | opener => exact (number_endLine (s.endWord.pushToken blockOpen)).trans (number_endWord s)
  | closer => exact (number_endLine s.endWord).trans (number_endWord s)
  | word => rfl

theorem number_step (s : Scan) (c : Char) : (s.step c).number = s.number + [c].count '\n' := by
  have hcount : (s.count c).number = s.number + [c].count '\n' := by
    unfold count
    by_cases h : c = '\n'
    · rw [if_pos h, h]
      rfl
    · rw [if_neg h, List.count_singleton, if_neg (by simpa using h)]
      rfl
  unfold step
  split
  · rw [number_stepQuoted, hcount]
  · rw [number_stepPlain, hcount]

theorem number_foldl (s : Scan) (cs : List Char) :
    (cs.foldl step s).number = s.number + cs.count '\n' := by
  induction cs generalizing s with
  | nil => rfl
  | cons c cs ih =>
    have hcons : (c :: cs).count '\n' = [c].count '\n' + cs.count '\n' := by
      rw [← List.count_append, List.singleton_append]
    rw [List.foldl_cons, ih, number_step, hcons, Nat.add_assoc]

/-! ### idle scans -/

theorem idle_eq {text : String} (h : (ofText text).IsIdle) :
    ofText text = ({} : Scan).behind (ofText text).lines (newlines text) := by
  have hnumber : (ofText text).number = 1 + newlines text := number_foldl {} text.toList
  have hstart : (ofText text).start = none :=
    BeginsAtToken.foldl (s := {}) (fun _ _ => rfl) text.toList h.word h.tokens
  obtain ⟨hquoted, hword, htokens⟩ := h
  generalize ofText text = s at hnumber hstart hquoted hword htokens ⊢
  obtain ⟨lines, tokens, word, number, start, quoted⟩ := s
  simp only at hnumber hstart hquoted hword htokens
  rw [hnumber, hstart, hquoted, hword, htokens]
  rfl

theorem finish_of_idle (h : s.IsIdle) : s.finish = s.lines.reverse := by
  rw [finish, endWord_of_nil h.word, endLine, h.tokens]

end Scan

/-- the lines of two sources that are joined between two statements -/
theorem Line.ofSource_append {a : String} (h : (Scan.ofText a).IsIdle) (b : String) :
    Line.ofSource (a ++ b) =
      Line.ofSource a ++ (Line.ofSource b).map (Line.lowered (newlines a)) := by
  have hlines : (Scan.ofText a).lines.reverse = Line.ofSource a := (Scan.finish_of_idle h).symm
  calc Line.ofSource (a ++ b)
      = (Scan.ofText (a ++ b)).finish := rfl
    _ = (b.toList.foldl Scan.step (({} : Scan).behind (Scan.ofText a).lines
          (newlines a))).finish := by rw [Scan.ofText_append, ← Scan.idle_eq h]
    _ = Line.ofSource a ++ (Line.ofSource b).map (Line.lowered (newlines a)) := by
        rw [Scan.foldl_behind, Scan.finish_behind, hlines]
        rfl

end Markup
