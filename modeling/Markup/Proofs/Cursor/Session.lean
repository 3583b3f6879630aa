import Markup.Cursor

/-!
# Sessions of a cursor

A session is a cursor together with copies of it that were saved, and `Session.run` is the use of it:
one operation after the other, each with its answer.  The cursor and its copies stay in the line that
they were made for (`Session.IsIn.run`), and no operation but a return to the start or to a copy takes
the cursor back (`Session.position_le_step`).
-/

namespace Markup

/-! ## the cursor behind a read -/

namespace Cursor

theorem line_takeEnclosed (c : Cursor) (b : Bracket) : (c.takeEnclosed b).2.line = c.line := by
  unfold takeEnclosed
  split <;> exact c.line_skipTo _

theorem line_takeArguments (c : Cursor) : c.takeArguments.2.line = c.line := by
  unfold takeArguments
  split <;> exact c.line_skipTo _

theorem position_le (c : Cursor) : c.position ≤ c.line.tokens.length := by
  simp only [position, line, List.length_append, List.length_reverse]
  omega

theorem position_le_skip (c : Cursor) (n : Nat) : c.position ≤ (c.skip n).position := by
  rw [position_skip]
  exact Nat.le_add_right _ _

end Cursor

/-! ## sessions -/

/-- something to do in a session -/
inductive Cursor.Operation where
  | peek
  | next
  | previous
  | atEnd
  | position
  | contains (token : String)
  | takeText (stop : String)
  | takeLine (stop : String) (outer : Bool)
  | takeEnclosed (b : Bracket)
  | takeArguments
  | requireClosed
  | rewind
  /-- keep a copy of the cursor -/
  | save
  /-- go back to a copy, the last one kept being at place 0 -/
  | restore (i : Nat)
  deriving DecidableEq, Repr

/-- what an operation gives -/
inductive Cursor.Answer where
  | done
  | text (text : String)
  | truth (value : Bool)
  | place (position : Nat)
  | line (line : Line)
  | enclosed (result : Except Unclosed Line)
  | arguments (result : Except Unclosed (List Line))
  | closed (result : Except Unclosed Unit)

/-- a cursor, and the copies of it that were saved, the last one first -/
structure Session where
  cursor : Cursor
  saved : List Cursor

/-- the session with which the reading of a line begins -/
def Line.session (line : Line) : Session := ⟨line.cursor, [line.cursor]⟩

namespace Session

open Cursor (Operation Answer)

/-- the answer of a read, and the session with the cursor behind it -/
def read {α : Type} (s : Session) (answer : α → Answer) (r : α × Cursor) : Answer × Session :=
  (answer r.1, { s with cursor := r.2 })

def step (s : Session) : Operation → Answer × Session
  | .peek => (.text s.cursor.peek, s)
  | .next => s.read .text s.cursor.next
  | .previous => (.text s.cursor.previous, s)
  | .atEnd => (.truth s.cursor.atEnd, s)
  | .position => (.place s.cursor.position, s)
  | .contains token => (.truth (s.cursor.contains token), s)
  | .takeText stop => s.read .text (s.cursor.takeText stop)
  | .takeLine stop outer => s.read .line (s.cursor.takeLine stop outer)
  | .takeEnclosed b => s.read .enclosed (s.cursor.takeEnclosed b)
  | .takeArguments => s.read .arguments s.cursor.takeArguments
  | .requireClosed => (.closed s.cursor.requireClosed, s)
  | .rewind => (.done, { s with cursor := s.cursor.rewind })
  | .save => (.done, { s with saved := s.cursor :: s.saved })
  | .restore i => (.done, { s with cursor := s.saved.getD i s.cursor })

def run (s : Session) : List Operation → List Answer × Session
  | [] => ([], s)
  | o :: os =>
    let (answer, s) := s.step o
    let (answers, s) := s.run os
    (answer :: answers, s)

/-! ## the line of a session -/

/-- the cursor and its copies are places in this line -/
structure IsIn (line : Line) (s : Session) : Prop where
  cursor : s.cursor.line = line
  saved : ∀ c ∈ s.saved, c.line = line

theorem isIn_session (line : Line) : line.session.IsIn line :=
  ⟨rfl, fun _ hc => congrArg Cursor.line (List.mem_singleton.mp hc)⟩

variable {line : Line} {s : Session}

theorem IsIn.step (h : s.IsIn line) (o : Operation) : (s.step o).2.IsIn line := by
  have hread : ∀ d : Cursor, d.line = s.cursor.line → Session.IsIn line ⟨d, s.saved⟩ :=
    fun d hd => ⟨hd.trans h.cursor, h.saved⟩
  cases o with
  | next => exact hread _ (s.cursor.line_skip 1)
  | takeText stop => exact hread _ (s.cursor.line_skipTo _)
  | takeLine stop outer => exact hread _ (s.cursor.line_skipTo _)
  | takeEnclosed b => exact hread _ (s.cursor.line_takeEnclosed b)
  | takeArguments => exact hread _ s.cursor.line_takeArguments
  | rewind => exact hread _ s.cursor.line_rewind
  | save => exact ⟨h.cursor, List.forall_mem_cons.mpr ⟨h.cursor, h.saved⟩⟩
  | restore i =>
    refine ⟨?_, h.saved⟩
    show (s.saved.getD i s.cursor).line = line
    rw [List.getD_eq_getElem?_getD]
    cases hi : s.saved[i]? with
    | none => exact h.cursor
    | some c => exact h.saved c (List.mem_of_getElem? hi)
  | _ => exact h

theorem IsIn.run (h : s.IsIn line) (os : List Operation) : (s.run os).2.IsIn line := by
  induction os generalizing s with
  | nil => exact h
  | cons o os ih => exact ih (h.step o)

/-! ## the position -/

/-- the cursor goes back to the start, or to a copy, or else not at all -/
theorem position_le_step (s : Session) (o : Operation) :
    o = .rewind ∨ (∃ i, o = .restore i) ∨ s.cursor.position ≤ (s.step o).2.cursor.position := by
  cases o with
  | next => exact .inr (.inr (s.cursor.position_le_skip 1))
  | takeText stop => exact .inr (.inr (s.cursor.position_le_skip _))
  | takeLine stop outer => exact .inr (.inr (s.cursor.position_le_skip _))
  | takeEnclosed b =>
    refine .inr (.inr ?_)
    show s.cursor.position ≤ (s.cursor.takeEnclosed b).2.position
    unfold Cursor.takeEnclosed
    split <;> exact s.cursor.position_le_skip _
  | takeArguments =>
    refine .inr (.inr ?_)
    show s.cursor.position ≤ s.cursor.takeArguments.2.position
    unfold Cursor.takeArguments
    split <;> exact s.cursor.position_le_skip _
  | rewind => exact .inl rfl
  | restore i => exact .inr (.inl ⟨i, rfl⟩)
  | _ => exact .inr (.inr (Nat.le_refl _))

end Session
end Markup
