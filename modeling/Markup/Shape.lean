import Markup.Bracket
import Markup.Line.Source
import Markup.Text.Alphabetic

/-!
# The shape of a value

A value is text that is stored and not evaluated.  `Shape.ofText` reads it as one line of tokens
and tells its outermost form:

* nothing at all, or one closed string;
* a vector `( a , b )`, a call `f ( a , b )` or an indexed target `a [ i ]`, if the partner of
  the opener is the last token;
* plain text in every other case.

It fails on a value with a bracket that has no partner, and reports it on line 1.
-/

namespace Markup

/-- the outermost form of a value; the texts in it are spaced tokens -/
inductive Shape where
  | empty
  | string (literal : String)
  | vector (components : List String)
  | call (name : String) (args : List String)
  | index (target inner : String)
  | plain (text : String)
  deriving DecidableEq, Repr

/-- a token that can be called or indexed: it begins with a letter or an underscore -/
def isIdentifier (token : String) : Bool :=
  match token.toList with
  | c :: _ => isAlphabetic c || c == '_'
  | [] => false

namespace Shape

def kind : Shape → String
  | .empty => "empty"
  | .string _ => "string"
  | .vector _ => "vector"
  | .call _ _ => "call"
  | .index _ _ => "index"
  | .plain _ => "plain"

/-- parts with a comma and a space between neighbours -/
def listed (parts : List String) : String := ", ".intercalate parts

/-- the value written out again -/
def text : Shape → String
  | .empty => ""
  | .string literal => literal
  | .vector components => "(" ++ listed components ++ ")"
  | .call name args => name ++ "(" ++ listed args ++ ")"
  | .index target inner => target ++ "[" ++ inner ++ "]"
  | .plain text => text

/-- the shape of a value with these tokens, once its brackets have been checked -/
def ofTokens (tokens : List String) : Except Unclosed Shape :=
  match tokens with
  | [] => .ok .empty
  | t :: ts =>
    if ts.isEmpty && isClosedString t then .ok (.string t)
    else if t = "(" then
      match arguments ts with
      | none => .error ⟨.round, 1⟩
      | some (components, []) => .ok (.vector (components.map spaced))
      | some (_, _ :: _) => .ok (.plain (spaced tokens))
    else if isIdentifier t then
      match ts with
      | [] => .ok (.plain (spaced tokens))
      | u :: us =>
        if u = "(" then
          match arguments us with
          | none => .error ⟨.round, 1⟩
          | some (args, []) => .ok (.call t (args.map spaced))
          | some (_, _ :: _) => .ok (.plain (spaced tokens))
        else if u = "[" then
          match Bracket.square.enclosed 0 us with
          | none => .error ⟨.square, 1⟩
          | some (inner, []) => .ok (.index t (spaced inner))
          | some (_, _ :: _) => .ok (.plain (spaced tokens))
        else .ok (.plain (spaced tokens))
    else .ok (.plain (spaced tokens))

def ofText (text : String) : Except Unclosed Shape :=
  (requireClosed 1 (tokensOf text)).bind fun _ => ofTokens (tokensOf text)

end Shape
end Markup
