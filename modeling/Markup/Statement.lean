import Markup.Element
import Markup.Event

/-!
# Statements

A line in the body of an element is a statement of one of three kinds:

* `var name`, `var name = value`      a variable, in the body of a root only;
* `child Type`, `child Type name`     a child, whose block opens on the same line or on the next;
* `name = value`                      a property.

`Statement.ofLine` tells which one a line is, or what is wrong with it.  A value reaches from the
equals sign to the next block opener.
-/

namespace Markup

/-- what a line says in the body of an element -/
inductive Statement where
  | property (name value : String)
  | declareVariable (name value : String)
  /-- a child; a detached one leaves its block to the next line, if that opens one -/
  | child (typeName : String) (name? : Option String) (detached : Bool)
  /-- a line that is passed over -/
  | rejected (problem : Problem)
  /-- a line with a value that gives up the whole element -/
  | unclosed (bracket : Unclosed)
  deriving DecidableEq, Repr

namespace Statement

/-- the statement with the value that these tokens begin with, once their brackets have been
checked -/
def withValue (line : Nat) (tokens : List String) (f : String → Statement) : Statement :=
  match requireClosed line tokens with
  | .error bracket => unclosed bracket
  | .ok _ => f (spaced (tokens.takeWhile (· != blockOpen)))

def variableOfLine (isRoot : Bool) (line : Line) : Statement :=
  let name := line.token 1
  let sign := line.token 2
  if !isRoot then rejected .nestedVariable
  else if name = "" ∨ name = blockOpen then rejected .variableWithoutName
  else if sign = "=" then withValue line.number (line.tokens.drop 3) (declareVariable name)
  else if sign = "" ∨ sign = blockOpen then declareVariable name ""
  else rejected (.afterVariable name sign)

/-- a child whose header goes on with this token -/
def childBefore (typeName : String) (name? : Option String) (token : String) : Statement :=
  if token = blockOpen then child typeName name? false
  else if token = "" then child typeName name? true
  else rejected (.unexpected token)

def childOfLine (line : Line) : Statement :=
  let typeName := line.token 1
  let name := line.token 2
  if typeName = "" ∨ typeName = blockOpen then rejected .childWithoutType
  else if name = "" ∨ name = blockOpen then childBefore typeName none name
  else childBefore typeName (some name) (line.token 3)

def propertyOfLine (line : Line) : Statement :=
  let name := line.first
  let sign := line.token 1
  if sign = "=" then withValue line.number (line.tokens.drop 2) (property name)
  else if sign = "" then rejected (.propertyWithoutValue name)
  else rejected (.afterProperty name sign)

/-- the statement of a line in the body of a root or of a child -/
def ofLine (isRoot : Bool) (line : Line) : Statement :=
  if line.first = blockOpen then rejected (.unexpected blockOpen)
  else if line.first = "var" then variableOfLine isRoot line
  else if line.first = "child" then childOfLine line
  else propertyOfLine line

end Statement
end Markup
