/-!
# Tokens

A token is a piece of text that the rest of the library never cuts: a word, one operator
character, a quoted string with its quotes, or a brace.

* `CharClass.of`       what a character does outside a string;
* `isClosedString`      the tokens that are closed strings;
* `isGroup`       the tokens that are folded `( ... )` runs;
* `spaced`             tokens written out with one space between neighbours.
-/

namespace Markup

/-! ## braces -/

/-- the token that opens a block and ends its line -/
def blockOpen : String := "\x7b"

/-- the token that closes a block and is a line of its own -/
def blockClose : String := "\x7d"

/-! ## characters -/

/-- what a character does outside a string -/
inductive CharClass where
  | quote
  | blank
  | terminator
  | opener
  | closer
  | operator
  | word
  deriving DecidableEq, Repr

/-- the class of a character; a character with no role of its own belongs to a word -/
def CharClass.of : Char → CharClass
  | '"' => .quote
  | ' ' | '\t' | '\n' | '\r' => .blank
  | ';' => .terminator
  | '{' => .opener
  | '}' => .closer
  | '<' | '>' | '(' | ')' | '=' | ',' | '+' | '-' | '*' | '/' | '%' | '[' | ']' => .operator
  | _ => .word

theorem CharClass.of_eq_quote {c : Char} : CharClass.of c = .quote ↔ c = '"' := by
  unfold CharClass.of; split <;> simp_all

theorem CharClass.of_eq_blank {c : Char} :
    CharClass.of c = .blank ↔ c = ' ' ∨ c = '\t' ∨ c = '\n' ∨ c = '\r' := by
  unfold CharClass.of; split <;> simp_all

theorem CharClass.of_eq_terminator {c : Char} : CharClass.of c = .terminator ↔ c = ';' := by
  unfold CharClass.of; split <;> simp_all

theorem CharClass.of_eq_opener {c : Char} : CharClass.of c = .opener ↔ c = '{' := by
  unfold CharClass.of; split <;> simp_all

theorem CharClass.of_eq_closer {c : Char} : CharClass.of c = .closer ↔ c = '}' := by
  unfold CharClass.of; split <;> simp_all

/-- a character that is a token by itself wherever it stands outside a string -/
def isOperator (c : Char) : Bool := CharClass.of c == .operator

/-! ## classes of tokens -/

def isDelimited (first last : Char) (token : String) : Bool :=
  match token.toList with
  | c :: d :: rest => c == first && (d :: rest).getLast? == some last
  | _ => false

/-- a token with a quote on both ends -/
def isClosedString (token : String) : Bool := isDelimited '"' '"' token

/-- a token with a round bracket on both ends -/
def isGroup (token : String) : Bool := isDelimited '(' ')' token

/-! ## writing tokens out -/

/-- tokens with one space between neighbours -/
def spaced (tokens : List String) : String := " ".intercalate tokens

theorem spaced_nil : spaced [] = "" := rfl

theorem spaced_singleton (t : String) : spaced [t] = t := by
  simp [spaced]

theorem spaced_cons_cons (t u : String) (ts : List String) :
    spaced (t :: u :: ts) = t ++ " " ++ spaced (u :: ts) := by
  simp [spaced, String.intercalate_cons_cons]

end Markup
