import Markup.Catalog
import Markup.Element
import Markup.Event

/-!
# The outline of a source

A source declares elements and constants outside all blocks.  `Outline.ofLines` finds them and
leaves the blocks of the elements unread; a line inside a block counts only for its braces.

* `Entry.ofLine`    what a line is, in itself and at a given depth of open blocks;
* `depthAfter`      the number of blocks open after it.

A rejected element declaration still opens its block, so that its body is passed over as a whole.
A constant ends with its line: a brace on it opens no block.
-/

namespace Markup

/-! ## declarations -/

/-- an element declaration whose block has not been read -/
structure Header where
  name : String
  file : String
  /-- the place of the declaration among the lines of its source -/
  start : Nat
  /-- the number of the source line of the declaration -/
  startLine : Nat
  deriving DecidableEq, Repr

/-- what a line is at the top level of a source -/
inductive Entry where
  | element (header : Header)
  | constant (constant : Constant)
  | rejected (problem : Problem)
  /-- a line in a block, or one that opens a block of no declaration -/
  | passed
  deriving DecidableEq, Repr

namespace Entry

def ofElementLine (catalog : Catalog) (file : String) (index : Nat) (line : Line) : Entry :=
  let name := line.token 1
  if name = "" ∨ name = blockOpen then rejected .elementWithoutName
  else if catalog.reserves name then rejected (.reservedName name)
  else if line.token 2 ≠ blockOpen then rejected (.elementWithoutBlock name)
  else element ⟨name, file, index, line.number⟩

def ofConstantLine (line : Line) : Entry :=
  let name := line.token 1
  let value := line.tokens.drop 3
  if name = "" then rejected .constantWithoutName
  else if line.token 2 = "" then rejected .constantWithoutValue
  else if line.token 2 ≠ "=" then rejected (.afterConstant (line.token 2))
  else
    match requireClosed line.number value with
    | .error bracket => rejected (.unclosedBracket bracket)
    | .ok _ => constant ⟨name, spaced (value.takeWhile (· != ""))⟩

/-- the line at place `index`, with `depth` blocks open before it -/
def ofLine (catalog : Catalog) (file : String) (depth index : Nat) (line : Line) : Entry :=
  if depth ≠ 0 then passed
  else if line.first = "element" then ofElementLine catalog file index line
  else if line.first = "const" then ofConstantLine line
  else if line.opens then passed
  else if line.closes then rejected (.unexpected blockClose)
  else rejected (.unexpected line.first)

/-- what is seen of an entry from outside -/
def events : Entry → List Event
  | element header => [.note (.found header.name header.file header.startLine)]
  | rejected (.unclosedBracket bracket) =>
    [.note (.constantAbandoned bracket), .problem (.unclosedBracket bracket)]
  | rejected problem => [.problem problem]
  | constant _ | passed => []

end Entry

/-- the number of blocks open after a line, with `depth` open before it -/
def depthAfter (depth : Nat) (line : Line) : Nat :=
  if depth = 0 ∧ line.first = "const" then 0
  else if line.opens then depth + 1
  else if line.closes then depth - 1
  else depth

/-! ## outlines -/

/-- the declarations of a source, and what is seen of the search for them -/
structure Outline where
  headers : List Header := []
  constants : List Constant := []
  events : List Event := []
  deriving DecidableEq, Repr

namespace Outline

/-- an outline with the entry at place `index` in front of it -/
def add (index : Nat) (entry : Entry) (o : Outline) : Outline :=
  { headers := match entry with
      | .element header => header :: o.headers
      | _ => o.headers
    constants := match entry with
      | .constant constant => constant :: o.constants
      | _ => o.constants
    events := .line index :: entry.events ++ o.events }

/-- the end of a source with `count` lines; a block that is open there is reported at the last -/
def atEnd (depth count : Nat) : Outline :=
  if depth = 0 then {} else { events := [.line (count - 1), .problem .unclosedBlock] }

/-- the outline of the lines from place `index` on, with `depth` blocks open before them -/
def ofLinesFrom (catalog : Catalog) (file : String) (depth index : Nat) : List Line → Outline
  | [] => atEnd depth index
  | line :: lines =>
    (ofLinesFrom catalog file (depthAfter depth line) (index + 1) lines).add index
      (Entry.ofLine catalog file depth index line)

def ofLines (catalog : Catalog) (file : String) (lines : List Line) : Outline :=
  ofLinesFrom catalog file 0 0 lines

theorem ofLinesFrom_nil (catalog : Catalog) (file : String) (depth index : Nat) :
    ofLinesFrom catalog file depth index [] = atEnd depth index := rfl

theorem ofLinesFrom_cons (catalog : Catalog) (file : String) (depth index : Nat) (line : Line)
    (lines : List Line) :
    ofLinesFrom catalog file depth index (line :: lines) =
      (ofLinesFrom catalog file (depthAfter depth line) (index + 1) lines).add index
        (Entry.ofLine catalog file depth index line) := rfl

end Outline
end Markup
