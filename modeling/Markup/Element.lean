/-!
# Elements and declarations

What a batch of sources declares: a list of elements, each a tree, and a list of constants.
Values are kept as text and not evaluated.

* `Element`            a node of a tree, with its properties, variables and children in order;
* `DeclaredElement`    a tree together with the source that declares it;
* `Declarations`       the elements and constants of a batch.

`Element.lookupProperty` gives the last property of a name, since a later assignment replaces an
earlier one, and `Element.addVariable` keeps the first variable of a name.
-/

namespace Markup

/-! ## parts -/

inductive ElementKind where
  /-- the toolkit provides it -/
  | toolkit
  /-- some source declares it -/
  | userDefined
  deriving DecidableEq, Repr

/-- a value assigned to a name in the body of an element -/
structure Property where
  name : String
  value : String
  deriving DecidableEq, Repr

/-- what is known of the type of a variable: nothing, as long as values are not evaluated -/
inductive VariableType where
  | unresolved
  deriving DecidableEq, Repr

/-- the initial value of a variable, empty if it has none -/
structure Variable where
  value : String
  type : VariableType := .unresolved
  deriving DecidableEq, Repr

/-- a value with a name for all sources -/
structure Constant where
  name : String
  value : String
  deriving DecidableEq, Repr

/-! ## trees -/

structure Element where
  typeName : String
  kind : ElementKind
  /-- the name of this instance of the type, if it has one -/
  name? : Option String
  properties : List Property
  /-- by name, in order of declaration -/
  vars : List (String × Variable)
  children : List Element
  deriving Repr

mutual

def Element.decEq : (a b : Element) → Decidable (a = b)
  | ⟨t₁, k₁, n₁, ps₁, vs₁, cs₁⟩, ⟨t₂, k₂, n₂, ps₂, vs₂, cs₂⟩ =>
    have : Decidable (cs₁ = cs₂) := Element.decEqList cs₁ cs₂
    decidable_of_iff
      (t₁ = t₂ ∧ k₁ = k₂ ∧ n₁ = n₂ ∧ ps₁ = ps₂ ∧ vs₁ = vs₂ ∧ cs₁ = cs₂)
      (by rw [Element.mk.injEq])

def Element.decEqList : (as bs : List Element) → Decidable (as = bs)
  | [], [] => isTrue rfl
  | [], _ :: _ => isFalse nofun
  | _ :: _, [] => isFalse nofun
  | a :: as, b :: bs =>
    have : Decidable (a = b) := Element.decEq a b
    have : Decidable (as = bs) := Element.decEqList as bs
    decidable_of_iff (a = b ∧ as = bs) (by rw [List.cons.injEq])

end

instance : DecidableEq Element := Element.decEq

namespace Element

/-- an element without a name and without contents -/
def bare (typeName : String) (kind : ElementKind) : Element :=
  ⟨typeName, kind, none, [], [], []⟩

/-- the property of this name that takes effect, which is the last one -/
def lookupProperty (e : Element) (name : String) : Option Property :=
  e.properties.reverse.find? (·.name == name)

def lookupVariable (e : Element) (name : String) : Option Variable := e.vars.lookup name

/-- the first child with this instance name -/
def lookupChild (e : Element) (name : String) : Option Element :=
  e.children.find? (·.name? == some name)

def addProperty (e : Element) (p : Property) : Element :=
  { e with properties := e.properties ++ [p] }

/-- one more variable, unless there is one of this name -/
def addVariable (e : Element) (name : String) (v : Variable) : Element :=
  if (e.lookupVariable name).isSome then e else { e with vars := e.vars ++ [(name, v)] }

def addChild (e child : Element) : Element := { e with children := e.children ++ [child] }

end Element

/-! ## declarations -/

/-- the tree of an element declaration and the name of its source -/
structure DeclaredElement where
  root : Element
  file : String
  deriving DecidableEq, Repr

/-- what a batch of sources declares: its elements and constants, in the order of the sources and
of the declarations in each -/
structure Declarations where
  elements : List DeclaredElement := []
  constants : List Constant := []
  deriving DecidableEq, Repr

def Declarations.lookupElement (d : Declarations) (name : String) : Option DeclaredElement :=
  d.elements.find? (·.root.typeName == name)

end Markup
