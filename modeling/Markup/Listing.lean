import Markup.Element
import Markup.Line.Groups
import Markup.Shape
import Markup.Text.Quoted

/-!
# Listings

Two ways to show what is in a source:

* `Line.listing`            its lines, a row for each, with quoted tokens;
* `Declarations.listing`    its constants and element trees, set in by two spaces a level, with the
                            shape of each value.
-/

namespace Markup

/-- rows, each with a newline at its end -/
def rows (texts : List String) : String := String.join (texts.map (· ++ "\n"))

theorem rows_append (a b : List String) : rows (a ++ b) = rows a ++ rows b := by
  simp [rows, String.join_append]

/-! ## lines -/

/-- a number with spaces before it, at least four characters wide -/
def padded (n : Nat) : String :=
  let digits := toString n
  String.ofList (List.replicate (4 - digits.length) ' ') ++ digits

def Line.row (index : Nat) (line : Line) : String :=
  padded index ++ " " ++ padded line.number ++ " | " ++ spaced (line.tokens.map quotedText)

def Line.listing (lines : List Line) : String :=
  rows (lines.zipIdx.map fun (line, index) => line.row index)

/-! ## trees -/

def shapeName (value : String) : String :=
  match Shape.ofText value with
  | .ok shape => shape.kind
  | .error _ => "invalid"

def Property.row (indent : String) (p : Property) : String :=
  indent ++ p.name ++ " = " ++ p.value ++ "  [" ++ shapeName p.value ++ "]"

def Variable.row (name : String) (v : Variable) : String :=
  "  var " ++ name ++ if v.value = "" then "" else " = " ++ v.value

def Constant.row (c : Constant) : String := "const " ++ c.name ++ " = " ++ c.value

namespace Element

def row (indent : String) (e : Element) : String :=
  indent ++ "child " ++ e.typeName ++
    match e.name? with
    | some name => " " ++ name
    | none => ""

mutual

def bodyRows (indent : String) : Element → List String
  | ⟨_, _, _, properties, _, children⟩ =>
    properties.map (Property.row indent) ++ childRows indent children

/-- the rows of some children, each followed by those of its body -/
def childRows (indent : String) : List Element → List String
  | [] => []
  | e :: es => e.row indent :: bodyRows (indent ++ "  ") e ++ childRows indent es

end

mutual

/-- the values of the properties of an element and its children, in the order of the rows -/
def values : Element → List String
  | ⟨_, _, _, properties, _, children⟩ => properties.map Property.value ++ childValues children

def childValues : List Element → List String
  | [] => []
  | e :: es => values e ++ childValues es

end
end Element

def DeclaredElement.rows (d : DeclaredElement) : List String :=
  (d.root.typeName ++ "  (" ++ d.file ++ ")") ::
    (d.root.vars.map fun (name, v) => v.row name) ++ d.root.bodyRows "  "

def Declarations.listing (d : Declarations) : String :=
  rows (d.constants.map Constant.row ++ d.elements.flatMap DeclaredElement.rows)

end Markup
