import Markup.Bracket
import Markup.Line

/-!
# Cursors

A cursor is a place in the tokens of a line, kept as the tokens before it, nearest first, and the
tokens from it on.  Every read gives its result and the cursor after it, and past the end of the
line the token read is the empty text.

The reads that run to a token drop that token:

* `Cursor.takeText`        the text up to a stop;
* `Cursor.takeLine`        the tokens up to a stop or the enclosing `)`;
* `Cursor.takeEnclosed`    the tokens up to the closer of the enclosing bracket;
* `Cursor.takeArguments`   the same, cut at commas.

The last two fail if the closer is missing; the cursor is then at the end of the line.
-/

namespace Markup

/-- a place in the tokens of a line -/
structure Cursor where
  /-- the tokens before it, nearest first -/
  passed : List String
  /-- the tokens from it on -/
  ahead : List String
  /-- the number of the line -/
  number : Nat
  deriving DecidableEq, Repr

def Line.cursor (line : Line) : Cursor := ⟨[], line.tokens, line.number⟩

namespace Cursor

/-! ## the place -/

def line (c : Cursor) : Line := ⟨c.passed.reverse ++ c.ahead, c.number⟩

/-- the number of tokens before it -/
def position (c : Cursor) : Nat := c.passed.length

def atEnd (c : Cursor) : Bool := c.ahead.isEmpty

def peek (c : Cursor) : String := c.ahead.headD ""

def previous (c : Cursor) : String := c.passed.headD ""

/-- the line has this token, before the cursor or after it -/
def contains (c : Cursor) (token : String) : Bool := c.line.contains token

/-! ## moves -/

/-- the cursor `n` tokens further on, or at the end -/
def skip (c : Cursor) (n : Nat) : Cursor :=
  { c with passed := (c.ahead.take n).reverse ++ c.passed, ahead := c.ahead.drop n }

/-- the cursor before these last tokens of its line -/
def skipTo (c : Cursor) (rest : List String) : Cursor := c.skip (c.ahead.length - rest.length)

def rewind (c : Cursor) : Cursor := c.line.cursor

def next (c : Cursor) : String × Cursor := (c.peek, c.skip 1)

theorem position_skip (c : Cursor) (n : Nat) :
    (c.skip n).position = c.position + min n c.ahead.length := by
  simp only [position, skip, List.length_append, List.length_reverse, List.length_take]
  omega

theorem line_skip (c : Cursor) (n : Nat) : (c.skip n).line = c.line := by
  simp only [line, skip, List.reverse_append, List.reverse_reverse, List.append_assoc,
    List.take_append_drop]

theorem line_skipTo (c : Cursor) (rest : List String) : (c.skipTo rest).line = c.line :=
  c.line_skip _

theorem line_rewind (c : Cursor) : c.rewind.line = c.line := by
  simp only [rewind, Line.cursor, line, List.reverse_nil, List.nil_append]

theorem skipTo_append (passed read rest : List String) (n : Nat) :
    (Cursor.mk passed (read ++ rest) n).skipTo rest = ⟨read.reverse ++ passed, rest, n⟩ := by
  simp [skipTo, skip]

theorem skipTo_append_cons (passed read : List String) (t : String) (rest : List String) (n : Nat) :
    (Cursor.mk passed (read ++ t :: rest) n).skipTo rest = ⟨t :: (read.reverse ++ passed), rest, n⟩ := by
  have h := skipTo_append passed (read ++ [t]) rest n
  rwa [List.append_assoc, List.reverse_append] at h

theorem atEnd_nil (passed : List String) (n : Nat) : (Cursor.mk passed [] n).atEnd = true := rfl

theorem not_atEnd_cons (passed : List String) (t : String) (ts : List String) (n : Nat) :
    ¬(Cursor.mk passed (t :: ts) n).atEnd = true := Bool.false_ne_true

theorem length_ahead_pos {c : Cursor} (h : ¬c.atEnd = true) : 0 < c.ahead.length :=
  List.length_pos_iff.mpr fun he => h (List.isEmpty_iff.mpr he)

theorem next_cons (passed : List String) (t : String) (ts : List String) (n : Nat) :
    (Cursor.mk passed (t :: ts) n).next = (t, ⟨t :: passed, ts, n⟩) := rfl

/-! ## reads -/

/-- the text of the tokens before the first `stop`, which is dropped -/
def takeText (c : Cursor) (stop : String) : String × Cursor :=
  (spaced (c.ahead.takeWhile (· != stop)), c.skipTo (c.ahead.dropWhile (· != stop)).tail)

/-- the tokens before the first `stop`, or before the `)` that closes the enclosing bracket if it
comes first; with `outer`, a `stop` in an inner bracket is passed over -/
def takeLine (c : Cursor) (stop : String) (outer : Bool) : Line × Cursor :=
  let (read, rest) := upToStop stop outer 0 c.ahead
  (⟨read, c.number⟩, c.skipTo rest)

/-- the tokens before the closer of the enclosing bracket -/
def takeEnclosed (c : Cursor) (b : Bracket) : Except Unclosed Line × Cursor :=
  match b.enclosed 0 c.ahead with
  | some (inner, rest) => (.ok ⟨inner, c.number⟩, c.skipTo rest)
  | none => (.error ⟨b, c.number⟩, c.skipTo [])

/-- the arguments before the `)` that closes the enclosing bracket -/
def takeArguments (c : Cursor) : Except Unclosed (List Line) × Cursor :=
  match arguments c.ahead with
  | some (args, rest) => (.ok (args.map (⟨·, c.number⟩)), c.skipTo rest)
  | none => (.error ⟨.round, c.number⟩, c.skipTo [])

/-- the bracket check of the tokens that are left -/
def requireClosed (c : Cursor) : Except Unclosed Unit := Markup.requireClosed c.number c.ahead

end Cursor
end Markup
