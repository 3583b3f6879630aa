/-!
# JSON

`Json` is the syntax tree of a JSON text.  Its compact form has no blanks and the fields of an
object in their order.  How a character is written in a string is left open (`Json.chars`); in
`Json.render` a quote, a backslash and a control character have an escape, and no other.

A JSON string can name one half of a surrogate pair, by an escape, without the other.  Such a
string is correct JSON and yet no text, so the strings of the tree are optional texts; one that is
missing renders as the replacement character.
-/

namespace Markup

/-- the syntax tree of a JSON text -/
inductive Json where
  | null
  | bool (value : Bool)
  /-- a number, as it is written -/
  | number (literal : String)
  | string (text : Option String)
  | array (items : List Json)
  /-- the fields in the order of the text, with those of one name that is repeated -/
  | object (fields : List (Option String × Json))
  deriving Repr

namespace Json

/-! ## making a tree -/

def text (s : String) : Json := string (some s)

def nat (n : Nat) : Json := number (toString n)

def record (fields : List (String × Json)) : Json :=
  object (fields.map fun (name, value) => (some name, value))

/-! ## strings -/

/-- a digit in the notation of base sixteen, in lower case -/
def hexDigit (n : Nat) : Char := if n < 10 then Char.ofNat (48 + n) else Char.ofNat (87 + n)

/-- a character as it is written in a string -/
def escape (c : Char) : List Char :=
  if c = '"' then ['\\', '"']
  else if c = '\\' then ['\\', '\\']
  else if c = '\n' then ['\\', 'n']
  else if c = '\r' then ['\\', 'r']
  else if c = '\t' then ['\\', 't']
  else if c.toNat = 8 then ['\\', 'b']
  else if c.toNat = 12 then ['\\', 'f']
  else if c.toNat < 32 then ['\\', 'u', '0', '0', hexDigit (c.toNat / 16), hexDigit (c.toNat % 16)]
  else [c]

/-! ## compact forms -/

section
variable (esc : Char → List Char)

def quoted (s : String) : List Char := '"' :: s.toList.flatMap esc ++ ['"']

def stringChars (s : Option String) : List Char := quoted esc (s.getD "\uFFFD")

mutual

/-- the characters of the compact form -/
def chars : Json → List Char
  | null => ['n', 'u', 'l', 'l']
  | bool true => ['t', 'r', 'u', 'e']
  | bool false => ['f', 'a', 'l', 's', 'e']
  | number literal => literal.toList
  | string s => stringChars esc s
  | array [] => ['[', ']']
  | array (j :: js) => '[' :: chars j ++ itemChars js
  | object [] => ['{', '}']
  | object ((name, j) :: fs) => '{' :: stringChars esc name ++ ':' :: chars j ++ fieldChars fs

/-- the items of an array after its first, and its end -/
def itemChars : List Json → List Char
  | [] => [']']
  | j :: js => ',' :: chars j ++ itemChars js

/-- the fields of an object after its first, and its end -/
def fieldChars : List (Option String × Json) → List Char
  | [] => ['}']
  | (name, j) :: fs => ',' :: stringChars esc name ++ ':' :: chars j ++ fieldChars fs

end

end

def render (j : Json) : String := String.ofList (j.chars escape)

end Json
end Markup
