import Markup.Block
import Markup.Proofs.Event
import Markup.Proofs.Line.Scanned

/-!
# Where a block ends

A block that goes on with some lines ends at the first closer that closes none of the blocks opened
in it.  `blockLength` counts the lines up to it.

* `blockLength_succ`       behind an inner block the outer one goes on;
* `readBlock_succ_agrees`    to pass over the blocks open in a block is to go on behind them;
* `reads_readBlock`        the reading of a block ends where the block ends.
-/

namespace Markup

theorem drop_succ_of_cons {α : Type} {as rest : List α} {a : α} {k : Nat}
    (h : as.drop k = a :: rest) : as.drop (k + 1) = rest := by
  rw [← List.tail_drop, h, List.tail_cons]

/-! ## the length of a block -/

/-- how many lines there are up to the closer of the enclosing block, that closer included, with
`depth` blocks open in it; all of them if there is no closer -/
def blockLength : Nat → List Line → Nat
  | _, [] => 0
  | depth, line :: lines =>
    if line.first = blockClose then
      match depth with
      | 0 => 1
      | depth + 1 => blockLength depth lines + 1
    else blockLength (if line.opens then depth + 1 else depth) lines + 1

section
variable {line : Line}

theorem opens_succ (depth : Nat) : (if line.opens then depth + 1 + 1 else depth + 1) =
    (if line.opens then depth + 1 else depth) + 1 := by
  split <;> rfl

theorem blockLength_nil (depth : Nat) : blockLength depth [] = 0 := by
  rw [blockLength]

theorem blockLength_zero_close (h : line.first = blockClose) (lines : List Line) :
    blockLength 0 (line :: lines) = 1 := by
  rw [blockLength, if_pos h]

theorem blockLength_succ_close (h : line.first = blockClose) (depth : Nat) (lines : List Line) :
    blockLength (depth + 1) (line :: lines) = blockLength depth lines + 1 := by
  rw [blockLength, if_pos h]

theorem blockLength_cons (h : line.first ≠ blockClose) (depth : Nat) (lines : List Line) :
    blockLength depth (line :: lines) =
      blockLength (if line.opens then depth + 1 else depth) lines + 1 := by
  cases depth <;> rw [blockLength, if_neg h]

/-- a statement of the block itself opens at most one block in it -/
theorem blockLength_statement (h : line.first ≠ blockClose) (lines : List Line) :
    blockLength 0 (line :: lines) = blockLength (depthAfterStatement line) lines + 1 := by
  rw [blockLength_cons h, depthAfterStatement]

end

theorem blockLength_le (depth : Nat) (lines : List Line) :
    blockLength depth lines ≤ lines.length := by
  induction lines generalizing depth with
  | nil => rw [blockLength_nil]; exact Nat.le_refl 0
  | cons line lines ih =>
    rw [List.length_cons]
    by_cases h : line.first = blockClose
    · cases depth with
      | zero => rw [blockLength_zero_close h]; omega
      | succ depth => rw [blockLength_succ_close h]; exact Nat.succ_le_succ (ih depth)
    · rw [blockLength_cons h]; exact Nat.succ_le_succ (ih _)

/-- behind the blocks that are open in a block comes the rest of it -/
theorem blockLength_succ (depth : Nat) (lines : List Line) :
    blockLength (depth + 1) lines =
      blockLength depth lines + blockLength 0 (lines.drop (blockLength depth lines)) := by
  induction lines generalizing depth with
  | nil => rw [blockLength_nil, blockLength_nil, List.drop_nil, blockLength_nil]
  | cons line lines ih =>
    by_cases h : line.first = blockClose
    · rw [blockLength_succ_close h]
      cases depth with
      | zero =>
        rw [blockLength_zero_close h, List.drop_succ_cons, List.drop_zero, Nat.add_comm]
      | succ depth =>
        rw [blockLength_succ_close h, List.drop_succ_cons, ih]
        omega
    · rw [blockLength_cons h, blockLength_cons h, List.drop_succ_cons]
      rw [opens_succ, ih]
      omega

theorem blockLength_zero_le (depth : Nat) (lines : List Line) :
    blockLength 0 lines ≤ blockLength depth lines := by
  induction depth with
  | zero => exact Nat.le_refl _
  | succ depth ih =>
    rw [blockLength_succ]
    omega

/-! ## passing over blocks -/

section
variable (catalog : Catalog) (isRoot : Bool)

theorem isAnchored_readBlock (e : Element) (depth : Nat) (detached : Bool) (index : Nat)
    (lines : List Line) : (readBlock catalog isRoot e depth detached index lines).IsAnchored := by
  cases lines with
  | nil =>
    rw [readBlock_nil]
    exact Traced.isAnchored_pure e
  | cons line lines =>
    cases depth <;> rw [readBlock] <;> exact Traced.isAnchored_after_line index _

/-- with blocks open in it, a block goes on behind their closers -/
theorem readBlock_succ_agrees (e : Element) (depth : Nat) (detached : Bool) (index : Nat)
    (lines : List Line) :
    (readBlock catalog isRoot e (depth + 1) detached index lines).Agrees
      (readBlock catalog isRoot e 0 detached (index + blockLength depth lines)
        (lines.drop (blockLength depth lines))) := by
  induction lines generalizing depth index with
  | nil =>
    rw [List.drop_nil, readBlock_nil, readBlock_nil]
    exact Traced.Agrees.refl _
  | cons line lines ih =>
    rw [readBlock]
    by_cases h : line.first = blockClose
    · rw [if_pos h]
      cases depth with
      | zero =>
        rw [blockLength_zero_close h, List.drop_succ_cons, List.drop_zero]
        exact (isAnchored_readBlock catalog isRoot e 0 detached _ lines).after_line_agrees index
      | succ depth =>
        have hi : index + (blockLength depth lines + 1) = index + 1 + blockLength depth lines := by
          omega
        rw [blockLength_succ_close h, List.drop_succ_cons, hi]
        exact ((isAnchored_readBlock catalog isRoot e _ detached _ lines).after_line_agrees
          index).trans (ih depth (index + 1))
    · rw [if_neg h, if_pos (Nat.succ_ne_zero depth), blockLength_cons h, List.drop_succ_cons]
      have hi : index + (blockLength (if line.opens then depth + 1 else depth) lines + 1) =
          index + 1 + blockLength (if line.opens then depth + 1 else depth) lines := by omega
      rw [opens_succ, hi]
      exact ((isAnchored_readBlock catalog isRoot e _ detached _ lines).after_line_agrees
        index).trans (ih _ (index + 1))

/-- the flag of a detached header counts only before a lone opener -/
theorem readBlock_detached {line : Line} (h : line.isLoneOpen = false) (e : Element)
    (detached : Bool) (index : Nat) (lines : List Line) :
    readBlock catalog isRoot e 0 detached index (line :: lines) =
      readBlock catalog isRoot e 0 false index (line :: lines) := by
  rw [readBlock, readBlock]
  by_cases hf : line.first = blockClose
  · rw [if_pos hf, if_pos hf]
  · rw [if_neg hf, if_neg hf, if_neg (not_not_intro rfl), if_neg (not_not_intro rfl)]
    rw [if_neg (fun hd => Bool.false_ne_true (h.symm.trans hd.2)),
      if_neg (fun hd => Bool.false_ne_true hd.1)]

/-- the block around a detached child passes over the opener of the child -/
theorem readBlock_opener_agrees {line : Line} (h : line.isLoneOpen = true) (e : Element)
    (index : Nat) (lines : List Line) :
    (readBlock catalog isRoot e 0 true index (line :: lines)).Agrees
      (readBlock catalog isRoot e 1 false (index + 1) lines) := by
  rw [readBlock, if_neg (Line.opens_of_isLoneOpen h).2, if_neg (not_not_intro rfl), if_pos ⟨rfl, h⟩]
  exact (isAnchored_readBlock catalog isRoot e 1 false _ lines).after_line_agrees index

end

/-! ## the lines that are looked at -/

/-- the block of a child whose header stands before these lines, the first of them at place
`index` -/
def readChild (catalog : Catalog) (child : Element) (detached : Bool) (index : Nat)
    (lines : List Line) : Traced Element :=
  if detached then
    match lines with
    | opener :: body =>
      if opener.isLoneOpen then readBlock catalog false child 0 false (index + 1) body
      else .pure child
    | [] => .pure child
  else readBlock catalog false child 0 false index lines

/-- the block of a child ends inside the block around it -/
theorem readChild_within {catalog : Catalog} {child : Element} {lines : List Line}
    (ih : ∀ n i, (readBlock catalog false child 0 false i (lines.drop n)).Reads i
      (blockLength 0 (lines.drop n)))
    (detached : Bool) (index depth : Nat) :
    ∀ x ∈ (readChild catalog child detached index lines).events,
      x.IsWithin index (index + blockLength depth lines) := by
  intro x hx
  unfold readChild at hx
  cases detached with
  | false =>
    have hle := blockLength_zero_le depth lines
    exact ((ih 0 index).within x hx).mono (Nat.le_refl _) (Nat.add_le_add_left hle index)
  | true =>
    cases lines with
    | nil => exact absurd hx List.not_mem_nil
    | cons opener body =>
      by_cases ho : opener.isLoneOpen = true
      · obtain ⟨hopens, hf⟩ := Line.opens_of_isLoneOpen ho
        have hle := blockLength_zero_le (depth + 1) body
        simp only [if_pos ho] at hx
        rw [blockLength_cons hf, if_pos hopens]
        refine ((ih 1 (index + 1)).within x hx).mono (Nat.le_succ _) ?_
        rw [List.drop_succ_cons, List.drop_zero]
        omega
      · simp only [if_neg ho] at hx
        exact absurd hx List.not_mem_nil

/-- the reading of a block looks at no line behind the closer of the block, and looks at the closer
in the end; without a closer, at the last line -/
theorem reads_readBlock (catalog : Catalog) (isRoot : Bool) (e : Element) (depth : Nat)
    (detached : Bool) (index : Nat) (lines : List Line) :
    (readBlock catalog isRoot e depth detached index lines).Reads index
      (blockLength depth lines) := by
  match lines with
  | [] =>
    rw [readBlock_nil, blockLength_nil]
    exact Traced.reads_pure e index
  | line :: lines =>
    have ih : ∀ isRoot e depth detached n i,
        (readBlock catalog isRoot e depth detached i (lines.drop n)).Reads i
          (blockLength depth (lines.drop n)) := fun isRoot e depth detached n i =>
      reads_readBlock catalog isRoot e depth detached i (lines.drop n)
    cases depth with
    | zero =>
      rw [readBlock]
      by_cases h : line.first = blockClose
      · rw [if_pos h, blockLength_zero_close h]
        exact (Traced.reads_pure e _).after_line
      · rw [if_neg h, if_neg (not_not_intro rfl), blockLength_statement h]
        by_cases hb : detached = true ∧ line.isLoneOpen = true
        · rw [if_pos hb, depthAfterStatement, if_pos (Line.opens_of_isLoneOpen hb.2).1]
          exact (ih isRoot e 1 false 0 (index + 1)).after_line
        · rw [if_neg hb]
          cases Statement.ofLine isRoot line with
          | property name value => exact (ih isRoot _ _ false 0 (index + 1)).after_line
          | declareVariable name value => exact (ih isRoot _ _ false 0 (index + 1)).after_line
          | rejected problem =>
            exact ((ih isRoot e _ false 0 (index + 1)).after_problem problem).after_line
          | unclosed bracket => exact Traced.reads_abandon bracket index _
          | child typeName name? detached =>
            refine (Traced.Reads.bind ?_ fun c => ih isRoot _ _ detached 0 (index + 1)).after_line
            exact readChild_within (ih false _ 0 false) detached (index + 1) _
    | succ depth =>
      rw [readBlock]
      by_cases h : line.first = blockClose
      · rw [if_pos h, blockLength_succ_close h]
        exact (ih isRoot e depth detached 0 (index + 1)).after_line
      · rw [if_neg h, if_pos (Nat.succ_ne_zero depth), blockLength_cons h]
        exact (ih isRoot e _ detached 0 (index + 1)).after_line
termination_by lines.length
decreasing_by
  rw [List.length_drop, List.length_cons]
  omega

end Markup
