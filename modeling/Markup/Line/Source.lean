import Markup.Line

/-!
# The lines of a source text

`Line.ofSource` cuts a source into lines, one character at a time:

* a blank ends a word and is dropped outside strings;
* a string runs from a quote to the next one, keeps every character between them, and is a
  token with its quotes; a string without a second quote is kept up to the end of the source;
* an operator character is a token by itself;
* a terminator ends the line, a block opener ends the line as its last token, and a block
  closer ends the line and is a line of its own;
* a line without tokens is not kept.

Reading never fails.  A line carries the number of the source line on which its first word,
string or operator begins; newlines in strings count like all others.
-/

namespace Markup

/-- what a scan has read so far; every list is kept latest first -/
structure Scan where
  /-- the lines that are complete -/
  lines : List Line := []
  /-- the complete tokens of the line being read -/
  tokens : List String := []
  /-- the characters of the token being read -/
  word : List Char := []
  /-- the number of the source line of the next character -/
  number : Nat := 1
  /-- the number of the source line on which the line being read begins -/
  start : Option Nat := none
  /-- the next character lies in a string -/
  quoted : Bool := false
  deriving Repr

namespace Scan

/-! ## parts of a step -/

/-- the line being read begins here, unless it has begun already -/
def begin (s : Scan) : Scan := { s with start := some (s.start.getD s.number) }

def push (s : Scan) (c : Char) : Scan := { s with word := c :: s.word }

def pushToken (s : Scan) (token : String) : Scan := { s with tokens := token :: s.tokens }

/-- the token being read is complete, if there is one -/
def endWord (s : Scan) : Scan :=
  match s.word with
  | [] => s
  | c :: cs => { s with tokens := String.ofList (c :: cs).reverse :: s.tokens, word := [] }

/-- the line being read is complete, if it has tokens; a line without a beginning of its own
begins where it ends -/
def endLine (s : Scan) : Scan :=
  match s.tokens with
  | [] => { s with start := none }
  | t :: ts =>
    { s with
      lines := ⟨(t :: ts).reverse, s.start.getD s.number⟩ :: s.lines
      tokens := []
      start := none }

/-- one more complete line, numbered by the current source line -/
def pushLine (s : Scan) (tokens : List String) : Scan :=
  { s with lines := ⟨tokens, s.number⟩ :: s.lines }

/-- a newline moves on to the next source line, in a string too -/
def count (s : Scan) (c : Char) : Scan :=
  if c = '\n' then { s with number := s.number + 1 } else s

/-! ## the step -/

def stepQuoted (s : Scan) (c : Char) : Scan :=
  match CharClass.of c with
  | .quote => { (s.push c).endWord with quoted := false }
  | _ => s.push c

def stepPlain (s : Scan) (c : Char) : Scan :=
  match CharClass.of c with
  | .quote => { s.endWord.begin.push c with quoted := true }
  | .blank => s.endWord
  | .terminator => s.endWord.endLine
  | .opener => (s.endWord.pushToken blockOpen).endLine
  | .closer => s.endWord.endLine.pushLine [blockClose]
  | .operator => s.endWord.begin.pushToken (String.singleton c)
  | .word => s.begin.push c

def step (s : Scan) (c : Char) : Scan :=
  if s.quoted then (s.count c).stepQuoted c else (s.count c).stepPlain c

theorem step_of_quoted {s : Scan} (h : s.quoted = true) (c : Char) :
    s.step c = (s.count c).stepQuoted c := by
  rw [step, if_pos h]

theorem step_of_not_quoted {s : Scan} (h : s.quoted = false) (c : Char) :
    s.step c = (s.count c).stepPlain c := by
  rw [step, if_neg (by rw [h]; exact Bool.false_ne_true)]

def finish (s : Scan) : List Line := s.endWord.endLine.lines.reverse

end Scan

/-- the lines of a source text -/
def Line.ofSource (source : String) : List Line :=
  (source.toList.foldl Scan.step {}).finish

/-- the tokens that a text is read as, over all its lines -/
def tokensOf (text : String) : List String := (Line.ofSource text).flatMap Line.tokens

end Markup
