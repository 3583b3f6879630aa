import Markup.Bracket

/-!
# Problems

What can be wrong with a line.  A problem is stored as its cause; `Problem.message` words it for
the author of the source, and `Problem.severity` tells what it costs: an unclosed bracket gives up
the whole constant or element, any other problem its statement only.
-/

namespace Markup

/-- what a problem costs -/
inductive Severity where
  /-- the statement is passed over -/
  | error
  /-- the constant or element is given up -/
  | fatal
  deriving DecidableEq, Repr

/-- what is wrong with a line -/
inductive Problem where
  /-- an element declaration without a name -/
  | elementWithoutName
  /-- an element declared under the name of a toolkit element -/
  | reservedName (name : String)
  /-- an element declaration whose block does not open right after the name -/
  | elementWithoutBlock (name : String)
  /-- a constant without a name -/
  | constantWithoutName
  /-- a constant without a value -/
  | constantWithoutValue
  /-- a constant whose name is not followed by an equals sign -/
  | afterConstant (token : String)
  /-- a line that begins with a token that can begin no statement there -/
  | unexpected (token : String)
  /-- a source that ends inside a block -/
  | unclosedBlock
  /-- a variable below the root of an element -/
  | nestedVariable
  /-- a variable without a name -/
  | variableWithoutName
  /-- a variable whose name is not followed by an equals sign -/
  | afterVariable (name token : String)
  /-- a child without a type -/
  | childWithoutType
  /-- a property without a value -/
  | propertyWithoutValue (name : String)
  /-- a property whose name is not followed by an equals sign -/
  | afterProperty (name token : String)
  /-- a value with a bracket that has no partner -/
  | unclosedBracket (bracket : Unclosed)
  deriving DecidableEq, Repr

namespace Problem

def quoted (text : String) : String := "'" ++ text ++ "'"

def message : Problem → String
  | elementWithoutName => "Expected a name after 'element'"
  | reservedName name =>
    "Invalid name: " ++ quoted name ++ ". A default element with this name already exists."
  | elementWithoutBlock name =>
    "Expected a " ++ quoted blockOpen ++ " after " ++ quoted ("element " ++ name)
  | constantWithoutName => "Expected a name after 'const'"
  | constantWithoutValue => "Expected a '=' after a constant definition."
  | afterConstant token =>
    "Unexpected " ++ quoted token ++ " after a constant definition. Expected '='"
  | unexpected token => "Unexpected " ++ quoted token
  | unclosedBlock => "Expected a closing " ++ quoted blockClose
  | nestedVariable => "Cannot declare variable here."
  | variableWithoutName => "Expected a name after 'var'"
  | afterVariable name token =>
    "Unexpected " ++ quoted token ++ " after variable " ++ quoted name ++ ". Expected '='"
  | childWithoutType => "Expected an element type after 'child'"
  | propertyWithoutValue name => "Expected '=' after " ++ quoted name
  | afterProperty name token => "Expected '=' after " ++ quoted name ++ ", got " ++ quoted token
  | unclosedBracket bracket => bracket.message

def severity : Problem → Severity
  | unclosedBracket _ => .fatal
  | _ => .error

end Problem
end Markup
