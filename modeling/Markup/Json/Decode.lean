import Markup.Batch
import Markup.Json.Encode
import Markup.Json.Parse

/-!
# Results from JSON

The values of which a JSON text is the form.  Besides the form that is written (`Json.Encode`) these
are read:

* a structure as an array of all its fields in order;
* a structure as an object with its fields in any order and other fields among them, which are not
  looked at; a field may not be repeated, and only `element_name` may be missing;
* a choice as an object with one field, named for the choice and `null`;
* repeated variables of an element, of which the last value counts, at the place of the first.

Each decoder takes as `room` how many arrays and objects may be opened, one in another, as far as
they are looked into.  Other readers may take other values too; the forms that every one of them has
to take are those of `Json.IsDeclarations`.
-/

namespace Markup
namespace Json

/-! ## parts -/

def toText : Json → Option String
  | string s => s
  | _ => none

/-- a field that may be `null` -/
def toOption {α : Type} (decode : Json → Option α) : Json → Option (Option α)
  | null => some none
  | j => (decode j).map some

def toList {α : Type} (decode : Nat → Json → Option α) : Nat → Json → Option (List α)
  | room + 1, array items => items.mapM (decode room)
  | _, _ => none

/-- the fields of an object, if all their names are texts -/
def namedFields (fields : List (Option String × Json)) : Option (List (String × Json)) :=
  fields.mapM fun (name, value) => name.map fun name => (name, value)

/-- the value of the field of this name, which may be missing but not repeated -/
def uniqueField (fields : List (String × Json)) (name : String) : Option (Option Json) :=
  match fields.filter fun (n, _) => n == name with
  | [] => some none
  | [(_, value)] => some (some value)
  | _ => none

/-- the values of the fields of a structure, in the order of their names -/
def toFields (names : List String) : Nat → Json → Option (List (Option Json))
  | _ + 1, array items => if items.length = names.length then some (items.map some) else none
  | _ + 1, object fields => (namedFields fields).bind fun fields => names.mapM (uniqueField fields)
  | _, _ => none

/-- one of several choices with a name -/
def toChoice {α : Type} (choices : List (String × α)) : Nat → Json → Option α
  | _, string (some name) => choices.lookup name
  | _ + 1, object [(some name, null)] => choices.lookup name
  | _, _ => none

/-! ## declarations -/

def toKind : Nat → Json → Option ElementKind :=
  toChoice [("Default", .toolkit), ("UserDefined", .userDefined)]

def toVariableType : Nat → Json → Option VariableType := toChoice [("Unresolved", .unresolved)]

def toVariable (room : Nat) (j : Json) : Option Variable := do
  match ← toFields ["value", "var_type"] room j with
  | [some value, some type] =>
    some ⟨← toText value, ← toVariableType (room - 1) type⟩
  | _ => none

/-- the variables with one more, or with another value for one of them -/
def putVariable (vars : List (String × Variable)) (name : String) (v : Variable) :
    List (String × Variable) :=
  if vars.any fun (n, _) => n == name then
    vars.map fun (n, w) => if n = name then (n, v) else (n, w)
  else vars ++ [(name, v)]

def toVariables : Nat → Json → Option (List (String × Variable))
  | room + 1, object fields => do
    let vars ← (← namedFields fields).mapM fun (name, j) =>
      (toVariable room j).map fun v => (name, v)
    some (vars.foldl (fun vs (name, v) => putVariable vs name v) [])
  | _, _ => none

def toNamed {α : Type} (make : String → String → α) (room : Nat) (j : Json) : Option α := do
  match ← toFields ["name", "value"] room j with
  | [some name, some value] => some (make (← toText name) (← toText value))
  | _ => none

def toProperty : Nat → Json → Option Property := toNamed .mk

def toConstant : Nat → Json → Option Constant := toNamed .mk

/-- a tree; below it, its lists and then their items are opened -/
def toElement : Nat → Json → Option Element
  | room + 2, j => do
    match ← toFields
      ["type_name", "kind", "element_name", "properties", "variables", "children"] (room + 2) j with
    | [some typeName, some kind, name?, some properties, some vars, some (array children)] =>
      some {
        typeName := ← toText typeName
        kind := ← toKind (room + 1) kind
        name? := ← toOption toText (name?.getD null)
        properties := ← toList toProperty (room + 1) properties
        vars := ← toVariables (room + 1) vars
        children := ← children.mapM (toElement room) }
    | _ => none
  | _, _ => none

def toDeclaredElement (room : Nat) (j : Json) : Option DeclaredElement := do
  match ← toFields ["root", "file"] room j with
  | [some root, some file] => some ⟨← toElement (room - 1) root, ← toText file⟩
  | _ => none

def toDeclarations (room : Nat) (j : Json) : Option Declarations := do
  match ← toFields ["elements", "constants"] room j with
  | [some elements, some constants] =>
    some {
      elements := ← toList toDeclaredElement (room - 1) elements
      constants := ← toList toConstant (room - 1) constants }
  | _ => none

def toSourceFile (room : Nat) (j : Json) : Option SourceFile := do
  match ← toFields ["name", "content"] room j with
  | [some name, some content] => some ⟨← toText name, ← toText content⟩
  | _ => none

/-! ## texts -/

/-- the declarations of which a text is the form, which nests no deeper than the room -/
def declarationsOfText (s : String) (room : Nat := 127) : Option Declarations :=
  (parse s).bind (toDeclarations room)

/-- the batch of which a text is the form, which nests no deeper than the room -/
def filesOfText (s : String) (room : Nat := 127) : Option (List SourceFile) :=
  (parse s).bind (toList toSourceFile room)

end Json
end Markup
