import Markup.Text.GraphemeExtend
import Markup.Text.Ignorable
import Markup.Text.Unprintable

/-!
# Quoted text

`quotedText` writes a text between quotes so that it can be read on a screen: quotes and backslashes
get a backslash, and what would not be seen, or would be drawn on the character before it, is named
by its code point.
-/

namespace Markup

/-- the code point of a character in braces, in base sixteen -/
def namedChar (c : Char) : List Char := '\\' :: 'u' :: '{' :: Nat.toDigits 16 c.toNat ++ ['}']

/-- a sound mark of the halfwidth kana, which takes a place of its own although it extends a
grapheme -/
def isHalfwidthSoundMark (c : Char) : Bool := c = '\uff9e' || c = '\uff9f'

/-- the character is drawn on the one before it -/
def isOverlaid (c : Char) : Bool := isGraphemeExtend c && !isHalfwidthSoundMark c

/-- a character of a quoted text -/
def quotedChar (c : Char) : List Char :=
  if c = '"' then ['\\', '"']
  else if c = '\\' then ['\\', '\\']
  else if c = '\n' then ['\\', 'n']
  else if c = '\r' then ['\\', 'r']
  else if c = '\t' then ['\\', 't']
  else if c.toNat = 0 then ['\\', '0']
  else if isOverlaid c || isIgnorable c || isUnprintable c then namedChar c
  else [c]

def quotedText (s : String) : String :=
  String.ofList ('"' :: s.toList.flatMap quotedChar ++ ['"'])

end Markup
