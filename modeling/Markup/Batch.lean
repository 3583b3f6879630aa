import Markup.Block
import Markup.Diagnostic
import Markup.Line.Source

/-!
# Batches

A batch is a list of named sources.  Of several sources with one name the first is read, and the
sources are read in the order of their names, whatever their order in the batch: first the outlines
of all of them, then the element trees.

`Batch.read` gives the declarations and the events of a batch, whatever is wrong with it;
`Batch.readStrict` accepts only a batch with nothing wrong, and only the standard catalog.
-/

namespace Markup

structure SourceFile where
  name : String
  content : String
  deriving DecidableEq, Repr

structure Document where
  name : String
  lines : List Line
  deriving DecidableEq, Repr

/-- what is read from a batch, and what is seen of the reading -/
structure Reading where
  declarations : Declarations
  events : List Event
  deriving DecidableEq, Repr

namespace Batch

/-! ## the sources that are read -/

/-- the first source of each name that is not among those seen before -/
def firsts (seen : List String) : List SourceFile → List SourceFile
  | [] => []
  | f :: fs => if f.name ∈ seen then firsts seen fs else f :: firsts (f.name :: seen) fs

/-- every source that is kept is in the batch and has a name not seen before -/
theorem of_mem_firsts {seen : List String} {files : List SourceFile} {f : SourceFile}
    (h : f ∈ firsts seen files) : f ∈ files ∧ f.name ∉ seen := by
  induction files generalizing seen with
  | nil => simp [firsts] at h
  | cons g gs ih =>
    rw [firsts] at h
    split at h
    · obtain ⟨h₁, h₂⟩ := ih h
      exact ⟨List.mem_cons_of_mem _ h₁, h₂⟩
    · next hg =>
      rcases List.mem_cons.mp h with rfl | h
      · exact ⟨List.mem_cons_self, hg⟩
      · obtain ⟨h₁, h₂⟩ := ih h
        exact ⟨List.mem_cons_of_mem _ h₁, fun hs => h₂ (List.mem_cons_of_mem _ hs)⟩

theorem nodup_firsts (seen : List String) (files : List SourceFile) :
    ((firsts seen files).map SourceFile.name).Nodup := by
  induction files generalizing seen with
  | nil => simp [firsts]
  | cons g gs ih =>
    rw [firsts]
    split
    · exact ih seen
    · rw [List.map_cons, List.nodup_cons]
      refine ⟨fun h => ?_, ih _⟩
      obtain ⟨f, hf, he⟩ := List.mem_map.mp h
      exact (of_mem_firsts hf).2 (by rw [he]; exact List.mem_cons_self)

/-- the notes on cutting the sources into lines, in the order of the batch -/
def scanNotes (seen : List String) : List SourceFile → List Note
  | [] => []
  | f :: fs =>
    if f.name ∈ seen then .duplicate f.name :: scanNotes seen fs
    else .scanned (Line.ofSource f.content).length :: scanNotes (f.name :: seen) fs

def document (f : SourceFile) : Document := ⟨f.name, Line.ofSource f.content⟩

/-- the sources that are read, by name -/
def documents (files : List SourceFile) : List Document :=
  ((firsts [] files).map document).mergeSort fun a b => a.name ≤ b.name

/-! ## reading -/

/-- the outline of a document, and what is seen of it -/
def outline (catalog : Catalog) (d : Document) : Outline :=
  let o := Outline.ofLines catalog d.name d.lines
  { o with
    events := .note (.outlining d.name d.lines.length) :: .source d.name d.lines :: o.events }

/-- the element of a header, if no bracket ends the reading of it, and what is seen of it -/
def build (catalog : Catalog) (d : Document) (h : Header) : Option DeclaredElement × List Event :=
  let r := h.build catalog d.lines
  match r.result with
  | .ok element => (some element, r.events)
  | .error bracket =>
    (none, r.events ++
      [.note (.elementAbandoned h.name bracket), .problem (.unclosedBracket bracket)])

theorem build_eq (catalog : Catalog) (d : Document) (h : Header) : build catalog d h =
    match (h.build catalog d.lines).result with
    | .ok element => (some element, (h.build catalog d.lines).events)
    | .error bracket => (none, (h.build catalog d.lines).events ++
        [.note (.elementAbandoned h.name bracket), .problem (.unclosedBracket bracket)]) := rfl

/-- the elements of a document, and what is seen of building them; a document without headers is
not turned to again -/
def buildAll (catalog : Catalog) (d : Document) (headers : List Header) :
    List DeclaredElement × List Event :=
  let built := headers.map (build catalog d)
  (built.filterMap Prod.fst,
    if headers.isEmpty then [] else .source d.name d.lines :: built.flatMap Prod.snd)

/-- the declarations of a batch -/
def read (catalog : Catalog) (files : List SourceFile) : Reading :=
  let outlines := (documents files).map fun d => (d, outline catalog d)
  let built := outlines.map fun (d, o) => buildAll catalog d o.headers
  { declarations :=
      { elements := built.flatMap Prod.fst
        constants := outlines.flatMap fun (_, o) => o.constants }
    events := (scanNotes [] files).map .note ++ (outlines.flatMap fun (_, o) => o.events) ++
      built.flatMap Prod.snd }

/-- the declarations of a batch without a problem, or its diagnostics -/
def readStrict (files : List SourceFile) : Except (List Diagnostic) Declarations :=
  let r := read .standard files
  match Diagnostics.ofEvents r.events with
  | [] => .ok r.declarations
  | ds => .error ds

end Batch
end Markup
