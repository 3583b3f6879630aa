import Markup.Line
import Markup.Text.Alphabetic
import Markup.Text.Numeric

/-!
# Groups

`Line.folded` folds every balanced run `( ... )` of a line into one token, written the way
a person would write it: `(1, 2, (3, 4))`.  From the first `(` without a partner on, the tokens
stay as they are.

* `groupLength`   how far the partner of a `(` is;
* `groupText`     the text of a run;
* `foldGroups`    the tokens with their runs folded.
-/

namespace Markup

/-! ## one group -/

/-- the number of tokens up to the `)` that closes the enclosing group, that `)` included, with
`depth` groups opened since -/
def groupLength : Nat → List String → Option Nat
  | _, [] => none
  | depth, t :: ts =>
    if t = "(" then (groupLength (depth + 1) ts).map (· + 1)
    else if t = ")" then
      match depth with
      | 0 => some 1
      | depth + 1 => (groupLength depth ts).map (· + 1)
    else (groupLength depth ts).map (· + 1)

/-- a letter, a digit, a quote or a point: a token with one of these is set apart from another -/
def isWordlike (c : Char) : Bool := isAlphabetic c || isNumeric c || c == '"' || c == '.'

/-- the text of tokens that follow a token, which was wordlike or not -/
def textAfter : Bool → List String → String
  | _, [] => ""
  | afterWord, t :: ts =>
    let word := t.toList.any isWordlike
    (if word && afterWord then " " else "") ++ t ++ (if t = "," then " " else "") ++
      textAfter word ts

/-- the tokens of a group without spaces, but for one between two wordlike tokens and one after
each comma -/
def groupText (tokens : List String) : String := textAfter false tokens

/-! ## all groups -/

/-- the tokens with every group folded, up to the first `(` without a partner -/
def foldGroups : List String → List String
  | [] => []
  | t :: ts =>
    if t = "(" then
      match groupLength 0 ts with
      | some n => groupText (t :: ts.take n) :: foldGroups (ts.drop n)
      | none => t :: ts
    else t :: foldGroups ts
termination_by tokens => tokens.length
decreasing_by all_goals simp only [List.length_cons, List.length_drop]; omega

def Line.folded (line : Line) : Line := { line with tokens := foldGroups line.tokens }

end Markup
