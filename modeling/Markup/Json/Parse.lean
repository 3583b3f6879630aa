import Markup.Json

/-!
# Reading JSON

`Json.parse` reads one JSON value with blanks around it and nothing else, and fails on any other
text.  The parts read from the front of a list of characters and give back what follows them:

* `Json.readString`   a string, from after its opening quote;
* `Json.readNumber`   a number, as it is written;
* `Json.readValue`    any value.

Values nest without a limit; the fuel of `readValue` is the room for one call, and twice the length
of the text is enough, since of two calls in a row one takes a character.
-/

namespace Markup
namespace Json

/-! ## blanks -/

/-- a character that may stand between the parts of a value -/
def isBlank (c : Char) : Bool := c == ' ' || c == '\n' || c == '\t' || c == '\r'

def skipBlanks (cs : List Char) : List Char := cs.dropWhile isBlank

/-! ## strings -/

def hexValue? (c : Char) : Option Nat :=
  if '0' ≤ c ∧ c ≤ '9' then some (c.toNat - 48)
  else if 'a' ≤ c ∧ c ≤ 'f' then some (c.toNat - 87)
  else if 'A' ≤ c ∧ c ≤ 'F' then some (c.toNat - 55)
  else none

theorem hexValue?_hexDigit {n : Nat} (h : n < 16) : hexValue? (hexDigit n) = some n := by
  have all : ∀ m < 16, hexValue? (hexDigit m) = some m := by decide
  exact all n h

def hexQuad? (a b c d : Char) : Option Nat :=
  match hexValue? a, hexValue? b, hexValue? c, hexValue? d with
  | some a, some b, some c, some d => some (((a * 16 + b) * 16 + c) * 16 + d)
  | _, _, _, _ => none

/-- the code point that an escape of one character stands for -/
def escaped? (c : Char) : Option Nat :=
  if c = '"' ∨ c = '\\' ∨ c = '/' then some c.toNat
  else if c = 'b' then some 8
  else if c = 'f' then some 12
  else if c = 'n' then some 10
  else if c = 'r' then some 13
  else if c = 't' then some 9
  else none

/-- the code points of a string up to its closing quote, and what follows it.  An escape can name
half of a surrogate pair, which is a code point of its own here. -/
def readUnits : List Char → Option (List Nat × List Char)
  | [] => none
  | c :: cs =>
    if c = '"' then some ([], cs)
    else if c = '\\' then
      match cs with
      | [] => none
      | e :: cs =>
        if e = 'u' then
          match cs with
          | h₁ :: h₂ :: h₃ :: h₄ :: cs =>
            (hexQuad? h₁ h₂ h₃ h₄).bind fun n =>
              (readUnits cs).map fun (ns, rest) => (n :: ns, rest)
          | _ => none
        else (escaped? e).bind fun n => (readUnits cs).map fun (ns, rest) => (n :: ns, rest)
    else if c.toNat < 32 then none
    else (readUnits cs).map fun (ns, rest) => (c.toNat :: ns, rest)

/-- the first half of a surrogate pair -/
def isHigh (n : Nat) : Bool := 0xD800 ≤ n && n ≤ 0xDBFF

/-- the second half of a surrogate pair -/
def isLow (n : Nat) : Bool := 0xDC00 ≤ n && n ≤ 0xDFFF

/-- the text of code points, if each half of a surrogate pair stands next to the other -/
def joinUnits : List Nat → Option (List Char)
  | [] => some []
  | [n] => if isHigh n || isLow n then none else some [Char.ofNat n]
  | n :: m :: ns =>
    if isHigh n then
      if isLow m then
        (joinUnits ns).map (Char.ofNat (0x10000 + (n - 0xD800) * 0x400 + (m - 0xDC00)) :: ·)
      else none
    else if isLow n then none
    else (joinUnits (m :: ns)).map (Char.ofNat n :: ·)

/-- a string from after its opening quote, and what follows it -/
def readString (cs : List Char) : Option (Option String × List Char) :=
  (readUnits cs).map fun (ns, rest) => ((joinUnits ns).map String.ofList, rest)

/-! ## numbers -/

/-- the decimal digits in front, if there are any, and what follows them -/
def readDigits (cs : List Char) : Option (List Char × List Char) :=
  match cs.takeWhile Char.isDigit with
  | [] => none
  | d :: ds => some (d :: ds, cs.dropWhile Char.isDigit)

/-- the whole part of a number: a zero, or digits that begin with another one -/
def readWhole (cs : List Char) : Option (List Char × List Char) :=
  match cs with
  | '0' :: cs => some (['0'], cs)
  | cs => readDigits cs

def readFraction (cs : List Char) : Option (List Char × List Char) :=
  match cs with
  | '.' :: cs => (readDigits cs).map fun (ds, rest) => ('.' :: ds, rest)
  | cs => some ([], cs)

def readSign (cs : List Char) : List Char × List Char :=
  match cs with
  | '+' :: cs => (['+'], cs)
  | '-' :: cs => (['-'], cs)
  | cs => ([], cs)

def readExponent (cs : List Char) : Option (List Char × List Char) :=
  match cs with
  | [] => some ([], [])
  | c :: rest =>
    if c = 'e' ∨ c = 'E' then
      let (sign, rest) := readSign rest
      (readDigits rest).map fun (ds, rest) => (c :: sign ++ ds, rest)
    else some ([], c :: rest)

def readUnsigned (cs : List Char) : Option (List Char × List Char) := do
  let (whole, cs) ← readWhole cs
  let (fraction, cs) ← readFraction cs
  let (exponent, cs) ← readExponent cs
  some (whole ++ fraction ++ exponent, cs)

/-- a number as it is written, and what follows it -/
def readNumber (cs : List Char) : Option (Json × List Char) :=
  match cs with
  | '-' :: cs => (readUnsigned cs).map fun (ds, rest) => (number (String.ofList ('-' :: ds)), rest)
  | cs => (readUnsigned cs).map fun (ds, rest) => (number (String.ofList ds), rest)

/-! ## values -/

/-- a value that is written as a word -/
def readWord (word : List Char) (value : Json) (cs : List Char) : Option (Json × List Char) :=
  if cs.take word.length = word then some (value, cs.drop word.length) else none

/-- the name of a field with its colon, and what follows them -/
def readName (cs : List Char) : Option (Option String × List Char) :=
  match skipBlanks cs with
  | '"' :: cs =>
    (readString cs).bind fun (name, rest) =>
      match skipBlanks rest with
      | ':' :: rest => some (name, rest)
      | _ => none
  | _ => none

mutual

def readValue : Nat → List Char → Option (Json × List Char)
  | 0, _ => none
  | fuel + 1, cs =>
    match skipBlanks cs with
    | [] => none
    | c :: cs =>
      if c = '[' then
        match skipBlanks cs with
        | ']' :: rest => some (array [], rest)
        | _ => (readItems fuel cs).map fun (items, rest) => (array items, rest)
      else if c = '{' then
        match skipBlanks cs with
        | '}' :: rest => some (object [], rest)
        | _ => (readFields fuel cs).map fun (fields, rest) => (object fields, rest)
      else if c = '"' then (readString cs).map fun (s, rest) => (string s, rest)
      else if c = 'n' then readWord ['u', 'l', 'l'] null cs
      else if c = 't' then readWord ['r', 'u', 'e'] (bool true) cs
      else if c = 'f' then readWord ['a', 'l', 's', 'e'] (bool false) cs
      else readNumber (c :: cs)

/-- the items of an array that has some, with its end, and what follows it -/
def readItems : Nat → List Char → Option (List Json × List Char)
  | 0, _ => none
  | fuel + 1, cs =>
    (readValue fuel cs).bind fun (item, rest) =>
      match skipBlanks rest with
      | ']' :: rest => some ([item], rest)
      | ',' :: rest => (readItems fuel rest).map fun (items, rest) => (item :: items, rest)
      | _ => none

/-- the fields of an object that has some, with its end, and what follows it -/
def readFields : Nat → List Char → Option (List (Option String × Json) × List Char)
  | 0, _ => none
  | fuel + 1, cs =>
    (readName cs).bind fun (name, rest) =>
      (readValue fuel rest).bind fun (value, rest) =>
        match skipBlanks rest with
        | '}' :: rest => some ([(name, value)], rest)
        | ',' :: rest =>
          (readFields fuel rest).map fun (fields, rest) => ((name, value) :: fields, rest)
        | _ => none

end

def parse (s : String) : Option Json :=
  match readValue (2 * s.length + 2) s.toList with
  | some (j, rest) => if (skipBlanks rest).isEmpty then some j else none
  | none => none

end Json
end Markup
