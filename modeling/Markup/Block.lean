import Markup.Outline
import Markup.Statement

/-!
# Blocks

`readBlock` reads the block of an element, root or child, into the element.  Only the statements of
the block itself count; the lines of the blocks inside it are passed over by their braces, and the
block of a child is read from the line after its header when that header is met.  So the lines of
a child are looked at once for the child, and once more for each block around it.

A rejected statement is reported and passed over, with its block if it opens one.  A value with an
unclosed bracket ends the reading of the whole tree.
-/

namespace Markup

/-- a child without contents -/
def Element.ofHeader (catalog : Catalog) (typeName : String) (name? : Option String) : Element :=
  let kind := if catalog.reserves typeName then .toolkit else .userDefined
  { Element.bare typeName kind with name? := name? }

/-- the number of blocks open in a block after a statement that stands in the block itself -/
def depthAfterStatement (line : Line) : Nat := if line.opens then 1 else 0

/-- the element with the statements of a block that goes on with these lines, the first of them at
place `index`.  In it, `depth` blocks are open; after a `detached` header a line that is a lone
opener opens the block of that header. -/
def readBlock (catalog : Catalog) (isRoot : Bool) (e : Element) (depth : Nat) (detached : Bool)
    (index : Nat) : List Line → Traced Element
  | [] => .pure e
  | line :: lines => Traced.after [.line index] <|
    if line.first = blockClose then
      match depth with
      | 0 => .pure e
      | depth + 1 => readBlock catalog isRoot e depth detached (index + 1) lines
    else if depth ≠ 0 then
      readBlock catalog isRoot e (if line.opens then depth + 1 else depth) detached (index + 1)
        lines
    else if detached ∧ line.isLoneOpen then
      readBlock catalog isRoot e 1 false (index + 1) lines
    else
      match Statement.ofLine isRoot line with
      | .property name value =>
        readBlock catalog isRoot (e.addProperty ⟨name, value⟩) (depthAfterStatement line) false
          (index + 1) lines
      | .declareVariable name value =>
        readBlock catalog isRoot (e.addVariable name ⟨value, .unresolved⟩)
          (depthAfterStatement line) false (index + 1) lines
      | .rejected problem =>
        (readBlock catalog isRoot e (depthAfterStatement line) false (index + 1) lines).after
          [.problem problem]
      | .unclosed bracket => .abandon bracket
      | .child typeName name? detached =>
        let child := Element.ofHeader catalog typeName name?
        let body :=
          if detached then
            match lines with
            | opener :: body =>
              if opener.isLoneOpen then readBlock catalog false child 0 false (index + 2) body
              else .pure child
            | [] => .pure child
          else readBlock catalog false child 0 false (index + 1) lines
        body.bind fun child =>
          readBlock catalog isRoot (e.addChild child) (depthAfterStatement line) detached
            (index + 1) lines

theorem readBlock_nil (catalog : Catalog) (isRoot : Bool) (e : Element) (depth : Nat)
    (detached : Bool) (index : Nat) :
    readBlock catalog isRoot e depth detached index [] = .pure e := by
  rw [readBlock]

theorem readBlock_close {line : Line} (h : line.first = blockClose) (catalog : Catalog)
    (isRoot : Bool) (e : Element) (detached : Bool) (index : Nat) (lines : List Line) :
    readBlock catalog isRoot e 0 detached index (line :: lines) =
      (Traced.pure e).after [.line index] := by
  rw [readBlock, if_pos h]

section
variable {catalog : Catalog} {isRoot : Bool} {e : Element} {detached : Bool} {index : Nat}
  {line : Line} {lines : List Line}

theorem readBlock_succ_close (h : line.first = blockClose) (depth : Nat) :
    readBlock catalog isRoot e (depth + 1) detached index (line :: lines) =
      (readBlock catalog isRoot e depth detached (index + 1) lines).after [.line index] := by
  rw [readBlock, if_pos h]

theorem readBlock_succ_cons (h : line.first ≠ blockClose) (depth : Nat) :
    readBlock catalog isRoot e (depth + 1) detached index (line :: lines) =
      (readBlock catalog isRoot e ((if line.opens then depth + 1 else depth) + 1) detached (index + 1)
        lines).after [.line index] := by
  rw [readBlock, if_neg h, if_pos (Nat.succ_ne_zero depth)]
  split <;> rfl

end

/-- the element that a header declares, of a source with these lines -/
def Header.build (catalog : Catalog) (lines : List Line) (h : Header) : Traced DeclaredElement :=
  ((readBlock catalog true (.bare h.name .userDefined) 0 false (h.start + 1)
      (lines.drop (h.start + 1))).bind fun root => .pure ⟨root, h.file⟩).after
    [.note (.building h.name h.file)]

end Markup
