import Markup.Proofs.Block.Extent
import Markup.Proofs.Outline.Extent

/-!
# Blocks that are closed

A block whose closer is among some lines is read from these lines, whatever follows them
(`readBlock_append`).  The header of a child looks at the line behind it for an opener, and the block
of the child begins one line further down; both lie before the closer of the block around the child.

* `Closes`               the enclosing block is closed by one of the lines;
* `closes_of_foldl`      so it is if no block is open at their end, as an outline counts them.
-/

namespace Markup

/-- one of the lines closes the enclosing block, with `depth` blocks open in it -/
def Closes : Nat → List Line → Prop
  | _, [] => False
  | depth, line :: lines =>
    if line.first = blockClose then
      match depth with
      | 0 => True
      | depth + 1 => Closes depth lines
    else Closes (if line.opens then depth + 1 else depth) lines

section
variable {line : Line}

theorem closes_nil (depth : Nat) : ¬Closes depth [] := by
  rw [Closes]
  exact id

theorem closes_zero_close (h : line.first = blockClose) (lines : List Line) :
    Closes 0 (line :: lines) := by
  rw [Closes, if_pos h]
  trivial

theorem closes_succ_close (h : line.first = blockClose) (depth : Nat) (lines : List Line) :
    Closes (depth + 1) (line :: lines) ↔ Closes depth lines := by
  rw [Closes, if_pos h]

theorem closes_cons (h : line.first ≠ blockClose) (depth : Nat) (lines : List Line) :
    Closes depth (line :: lines) ↔ Closes (if line.opens then depth + 1 else depth) lines := by
  cases depth <;> rw [Closes, if_neg h]

end

theorem Closes.of_succ {depth : Nat} {lines : List Line} (h : Closes (depth + 1) lines) :
    Closes depth lines := by
  induction lines generalizing depth with
  | nil => exact absurd h (closes_nil _)
  | cons line lines ih =>
    by_cases hc : line.first = blockClose
    · rw [closes_succ_close hc] at h
      cases depth with
      | zero => exact closes_zero_close hc lines
      | succ depth => exact (closes_succ_close hc depth lines).mpr (ih h)
    · rw [closes_cons hc] at h ⊢
      split at h
      · next ho => exact (if_pos ho ▸ ih h)
      · next ho => exact (if_neg ho ▸ ih h)

theorem Closes.zero {depth : Nat} {lines : List Line} (h : Closes depth lines) : Closes 0 lines := by
  induction depth with
  | zero => exact h
  | succ depth ih => exact ih h.of_succ

theorem closes_of_foldl {depth : Nat} {lines : List Line} (hl : ∀ line ∈ lines, line.IsScanned)
    (h : lines.foldl depthAfter (depth + 1) = 0) : Closes depth lines := by
  induction lines generalizing depth with
  | nil => exact absurd h (Nat.succ_ne_zero depth)
  | cons line lines ih =>
    obtain ⟨hline, hlines⟩ := List.forall_mem_cons.mp hl
    rw [List.foldl_cons, depthAfter_succ_eq hline] at h
    by_cases hc : line.first = blockClose
    · rw [if_pos hc] at h
      cases depth with
      | zero => exact closes_zero_close hc lines
      | succ depth => exact (closes_succ_close hc depth lines).mpr (ih hlines h)
    · rw [if_neg hc] at h
      rw [closes_cons hc]
      by_cases ho : line.opens = true
      · rw [if_pos ho] at h ⊢
        exact ih hlines h
      · rw [if_neg ho] at h ⊢
        exact ih hlines h

/-! ## what follows a closed block -/

section
variable (catalog : Catalog)

theorem readChild_append {lines : List Line} {c : Element} (rest : List Line)
    (ih : ∀ n i, Closes 0 (lines.drop n) →
      readBlock catalog false c 0 false i (lines.drop n ++ rest) =
        readBlock catalog false c 0 false i (lines.drop n))
    {depth : Nat} (h : Closes depth lines) (detached : Bool) (index : Nat) :
    readChild catalog c detached index (lines ++ rest) = readChild catalog c detached index lines := by
  unfold readChild
  cases detached with
  | false => exact ih 0 index h.zero
  | true =>
    cases lines with
    | nil => exact absurd h (closes_nil depth)
    | cons opener body =>
      rw [List.cons_append]
      simp only [if_true]
      by_cases ho : opener.isLoneOpen = true
      · obtain ⟨hopens, hc⟩ := Line.opens_of_isLoneOpen ho
        rw [closes_cons hc, if_pos hopens] at h
        rw [if_pos ho, if_pos ho]
        exact ih 1 (index + 1) h.zero
      · rw [if_neg ho, if_neg ho]

/-- the reading of a block that is closed does not look behind its closer -/
theorem readBlock_append (isRoot : Bool) (e : Element) {depth : Nat} (detached : Bool) (index : Nat)
    {lines : List Line} (h : Closes depth lines) (rest : List Line) :
    readBlock catalog isRoot e depth detached index (lines ++ rest) =
      readBlock catalog isRoot e depth detached index lines := by
  match lines with
  | [] => exact absurd h (closes_nil depth)
  | line :: lines =>
    -- by recursion on the lines: the block of a child is read from the second line behind on
    have ih : ∀ isRoot e detached n i depth, Closes depth (lines.drop n) →
        readBlock catalog isRoot e depth detached i (lines.drop n ++ rest) =
          readBlock catalog isRoot e depth detached i (lines.drop n) :=
      fun isRoot e detached n i depth h => readBlock_append isRoot e detached i h rest
    rw [List.cons_append]
    cases depth with
    | zero =>
      rw [readBlock, readBlock]
      by_cases hc : line.first = blockClose
      · rw [if_pos hc, if_pos hc]
      · rw [closes_cons hc] at h
        have hstatement : ∀ e detached,
            readBlock catalog isRoot e (depthAfterStatement line) detached (index + 1)
              (lines ++ rest) =
            readBlock catalog isRoot e (depthAfterStatement line) detached (index + 1) lines :=
          fun e detached => ih isRoot e detached 0 (index + 1) _ h
        rw [if_neg hc, if_neg hc, if_neg (not_not_intro rfl), if_neg (not_not_intro rfl)]
        by_cases hd : detached = true ∧ line.isLoneOpen = true
        · rw [if_pos (Line.opens_of_isLoneOpen hd.2).1] at h
          rw [if_pos hd, if_pos hd]
          exact congrArg _ (ih isRoot e false 0 (index + 1) 1 h)
        · rw [if_neg hd, if_neg hd]
          cases Statement.ofLine isRoot line with
          | property name value => exact congrArg _ (hstatement _ false)
          | declareVariable name value => exact congrArg _ (hstatement _ false)
          | rejected problem =>
            show Traced.after _ (Traced.after _ _) = Traced.after _ (Traced.after _ _)
            rw [hstatement e false]
          | unclosed bracket => rfl
          | child typeName name? detached =>
            refine congrArg _ ?_
            show (readChild catalog _ detached (index + 1) (lines ++ rest)).bind _ =
              (readChild catalog _ detached (index + 1) lines).bind _
            -- the block of the child is closed before the block around it is
            rw [readChild_append catalog rest (fun n i => ih false _ false n i 0) h]
            exact congrArg _ (funext fun c => hstatement (e.addChild c) detached)
    | succ depth =>
      rw [readBlock, readBlock]
      by_cases hc : line.first = blockClose
      · rw [closes_succ_close hc] at h
        rw [if_pos hc, if_pos hc]
        exact congrArg _ (ih isRoot e detached 0 (index + 1) depth h)
      · rw [closes_cons hc] at h
        rw [if_neg hc, if_neg hc, if_pos (Nat.succ_ne_zero depth), if_pos (Nat.succ_ne_zero depth)]
        exact congrArg _ (ih isRoot e detached 0 (index + 1) _ h)
termination_by lines.length
decreasing_by
  rw [List.length_drop, List.length_cons]
  omega

end

/-- the element of a header is read from the lines of a source that leaves no block open, whatever
follows them -/
theorem Header.build_append {catalog : Catalog} {file : String} {lines : List Line}
    (hl : ∀ line ∈ lines, line.IsScanned) (h0 : depthBefore lines lines.length = 0) {h : Header}
    (hm : h ∈ (Outline.ofLines catalog file lines).headers) (rest : List Line) :
    h.build catalog (lines ++ rest) = h.build catalog lines := by
  obtain ⟨hlt, _, h1⟩ := Outline.depthBefore_of_mem_headers catalog file hm
  have hlen : lines.length = h.start + 1 + (lines.length - (h.start + 1)) := by omega
  have hfold : (lines.drop (h.start + 1)).foldl depthAfter 1 = 0 := by
    have hadd := depthBefore_add lines (h.start + 1) (lines.length - (h.start + 1))
    rw [← hlen, h0, h1, List.take_of_length_le (Nat.le_of_eq List.length_drop)] at hadd
    exact hadd.symm
  have hcloses : Closes 0 (lines.drop (h.start + 1)) :=
    closes_of_foldl (fun line hm => hl line (List.mem_of_mem_drop hm)) hfold
  rw [Header.build, Header.build, List.drop_append_of_le_length (by omega),
    readBlock_append catalog true _ false _ hcloses rest]

end Markup
