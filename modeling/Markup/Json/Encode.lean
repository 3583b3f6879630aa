import Markup.Diagnostic
import Markup.Element
import Markup.Json
import Markup.Shape

/-!
# Results as JSON

The JSON form of what is read from a batch.  A structure is an object with all its fields, a list
of values an array, and the variables of an element an object in their order.
-/

namespace Markup
namespace Json

/-- a field that may be missing -/
def orNull {α : Type} (encode : α → Json) : Option α → Json
  | some a => encode a
  | none => null

def list {α : Type} (encode : α → Json) (items : List α) : Json := array (items.map encode)

/-! ## declarations -/

def ofKind : ElementKind → Json
  | .toolkit => text "Default"
  | .userDefined => text "UserDefined"

def ofVariableType : VariableType → Json
  | .unresolved => text "Unresolved"

def ofVariable (v : Variable) : Json :=
  record [("value", text v.value), ("var_type", ofVariableType v.type)]

def ofNamed (name value : String) : Json := record [("name", text name), ("value", text value)]

def ofProperty (p : Property) : Json := ofNamed p.name p.value

def ofConstant (c : Constant) : Json := ofNamed c.name c.value

mutual

def ofElement : Element → Json
  | ⟨typeName, kind, name?, properties, vars, children⟩ =>
    record [
      ("type_name", text typeName),
      ("kind", ofKind kind),
      ("element_name", orNull text name?),
      ("properties", list ofProperty properties),
      ("variables", record (vars.map fun (name, v) => (name, ofVariable v))),
      ("children", array (ofElements children))]

def ofElements : List Element → List Json
  | [] => []
  | e :: es => ofElement e :: ofElements es

end

def ofDeclaredElement (d : DeclaredElement) : Json :=
  record [("root", ofElement d.root), ("file", text d.file)]

def ofDeclarations (d : Declarations) : Json :=
  record [
    ("elements", list ofDeclaredElement d.elements),
    ("constants", list ofConstant d.constants)]

/-! ## diagnostics and shapes -/

def ofSeverity : Severity → Json
  | .error => text "error"
  | .fatal => text "fatal"

def ofDiagnostic (d : Diagnostic) : Json :=
  record [
    ("file", text d.file),
    ("line_index", nat d.lineIndex),
    ("line", nat d.line),
    ("source", text d.source),
    ("message", text d.message),
    ("severity", ofSeverity d.severity)]

def shapeFields : Shape → List (String × Json)
  | .empty => []
  | .string literal => [("literal", text literal)]
  | .vector components => [("components", list text components)]
  | .call name args => [("name", text name), ("args", list text args)]
  | .index target inner => [("target", text target), ("index", text inner)]
  | .plain s => [("text", text s)]

def ofShape (s : Shape) : Json := record (("kind", text s.kind) :: shapeFields s)

end Json
end Markup
