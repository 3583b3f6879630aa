import Markup.Token

/-!
# Lines

A line is one statement: its tokens, and the number of the source line on which it begins.  A
block is opened by a `blockOpen` at the end of a line and closed by a line that is a lone
`blockClose`; lines that were not read from a source may hold braces anywhere.

A token that is missing reads as the empty text, so `line.token i` needs no bound on `i`.
-/

namespace Markup

/-- the tokens of one statement and the source line, counted from 1, on which it begins -/
structure Line where
  tokens : List String
  number : Nat
  deriving DecidableEq, Repr, Inhabited

namespace Line

/-- the token at place `i`, empty beyond the end -/
def token (line : Line) (i : Nat) : String := line.tokens.getD i ""

/-- the first token, empty if there is none -/
def first (line : Line) : String := line.token 0

def contains (line : Line) (token : String) : Bool := line.tokens.contains token

/-- the tokens with one space between neighbours -/
def text (line : Line) : String := spaced line.tokens

def opens (line : Line) : Bool := line.contains blockOpen

def closes (line : Line) : Bool := line.contains blockClose

def isLoneOpen (line : Line) : Bool := line.tokens == [blockOpen]

end Line
end Markup
