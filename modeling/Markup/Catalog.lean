/-!
# Catalogs

A catalog says which element types the toolkit itself provides.  A source may not declare an
element under a reserved name, and a child of a reserved type is a toolkit element.
-/

namespace Markup

/-- the element types that the toolkit provides -/
structure Catalog where
  /-- the toolkit provides an element type of this name -/
  reserves : String → Bool

namespace Catalog

def standardNames : List String :=
  ["UIBox", "UIBackground", "UIButton", "UIText", "UITextField", "UIScrollBox", "UISpinner"]

def ofNames (names : List String) : Catalog := ⟨names.contains⟩

def standard : Catalog := ofNames standardNames

def extended (names : List String) : Catalog := ofNames (standardNames ++ names)

end Catalog
end Markup
