import Markup.Proofs.Outline.Extent

/-!
# Lines that nothing is read from

Any line that ends in an opener opens a block, whatever else it says, but only the blocks of elements
and of their children are read.  All other blocks are passed over, and outside all blocks the lines
that open them too: these lines are aside (`IsAside`).

* `encloses_of_le`      a line encloses the lines of the block that it opens, and no other ones;
* `exists_encloses`     each line in a block is enclosed by a line outside all blocks.
-/

namespace Markup

/-! ## blocks around a line -/

/-- line `i` lies in the block that line `j` opens -/
def Encloses (lines : List Line) (j i : Nat) : Prop :=
  j < i ∧ ∀ m, j < m → m ≤ i → depthBefore lines j < depthBefore lines m

/-- line `j` opens a block that is no block of an element: outside all blocks it neither declares an
element nor is a constant, in a block it is no header of a child nor the opener of a detached one -/
def OpensAside (lines : List Line) (j : Nat) : Prop :=
  ∃ line, lines[j]? = some line ∧ line.opens = true ∧
    if depthBefore lines j = 0 then line.first ≠ "element" ∧ line.first ≠ "const"
    else line.first ≠ "child" ∧ line.isLoneOpen = false

/-- line `i` lies in a block that is passed over, or outside all blocks and opens one -/
def IsAside (lines : List Line) (i : Nat) : Prop :=
  (depthBefore lines i = 0 ∧ OpensAside lines i) ∨ ∃ j, Encloses lines j i ∧ OpensAside lines j

variable {lines : List Line} {i j : Nat} {line : Line}

theorem depthBefore_zero (lines : List Line) : depthBefore lines 0 = 0 := rfl

theorem depthBefore_succ (h : lines[i]? = some line) :
    depthBefore lines (i + 1) = depthAfter (depthBefore lines i) line := by
  obtain ⟨hi, hline⟩ := List.getElem?_eq_some_iff.mp h
  rw [depthBefore_add, List.drop_eq_getElem_cons hi, hline]
  rfl

theorem opensAside_of_first (hline : lines[i]? = some line) (hd : depthBefore lines i ≠ 0)
    (hb : line.first ≠ blockOpen) (hc : line.first ≠ "child") (ho : line.opens = true) :
    OpensAside lines i := by
  have hlone : line.isLoneOpen = false := by
    rw [Line.isLoneOpen, beq_eq_false_iff_ne]
    intro he
    rw [Line.first, Line.token, he] at hb
    exact hb rfl
  refine ⟨line, hline, ho, ?_⟩
  rw [if_neg hd]
  exact ⟨hc, hlone⟩

/-- a line in a block is enclosed by the one that opens the outermost block around it -/
theorem exists_encloses (h : depthBefore lines i ≠ 0) :
    ∃ j, depthBefore lines j = 0 ∧ Encloses lines j i := by
  induction i with
  | zero => exact absurd (depthBefore_zero lines) h
  | succ i ih =>
    by_cases hi : depthBefore lines i = 0
    · refine ⟨i, hi, Nat.lt_succ_self i, fun m hm hle => ?_⟩
      obtain rfl : m = i + 1 := by omega
      omega
    · obtain ⟨j, hj, hlt, hall⟩ := ih hi
      refine ⟨j, hj, by omega, fun m hm hle => ?_⟩
      by_cases he : m = i + 1
      · subst he
        omega
      · exact hall m hm (by omega)

section
variable (hl : ∀ line ∈ lines, line.IsScanned) (h1 : depthBefore lines (j + 1) = depthBefore lines j + 1)
include hl h1

theorem encloses_of_le (hlt : j < i) (hle : i ≤ j + blockLength 0 (lines.drop (j + 1))) :
    Encloses lines j i := by
  obtain ⟨hwithin, _⟩ := foldl_depthAfter_blockLength (depthBefore lines j) 0 (lines.drop (j + 1))
    fun line hm => hl line (List.mem_of_mem_drop hm)
  refine ⟨hlt, fun m hm hmi => ?_⟩
  obtain ⟨n, rfl⟩ := Nat.exists_eq_add_of_lt hm
  have hn : j + n + 1 = j + 1 + n := by omega
  rw [hn, depthBefore_add, h1]
  exact hwithin n (by omega)

theorem depthBefore_behind :
    depthBefore lines (j + 1 + blockLength 0 (lines.drop (j + 1))) = depthBefore lines j ∨
      lines.length ≤ j + 1 + blockLength 0 (lines.drop (j + 1)) := by
  obtain ⟨_, hend⟩ := foldl_depthAfter_blockLength (depthBefore lines j) 0 (lines.drop (j + 1))
    fun line hm => hl line (List.mem_of_mem_drop hm)
  rcases hend with hend | hend
  · left
    rw [depthBefore_add, h1]
    exact hend
  · right
    rw [hend, List.length_drop]
    omega

end

theorem depthAfter_le (depth : Nat) (line : Line) : depthAfter depth line ≤ depth + 1 := by
  unfold depthAfter
  split
  · omega
  · split
    · omega
    · split <;> omega

theorem Encloses.depthBefore_succ_eq (h : Encloses lines j i) (hj : lines[j]? = some line) :
    depthBefore lines (j + 1) = depthBefore lines j + 1 := by
  have hle := depthAfter_le (depthBefore lines j) line
  have hlt := h.2 (j + 1) (Nat.lt_succ_self j) h.1
  rw [← depthBefore_succ hj] at hle
  omega

/-- what a line outside all blocks encloses lies before the end of its block -/
theorem Encloses.le_blockEnd (hl : ∀ line ∈ lines, line.IsScanned) (h : Encloses lines j i)
    (hj : lines[j]? = some line) (h0 : depthBefore lines j = 0) (hi : i < lines.length) :
    i ≤ blockEnd lines j := by
  have h1 := h.depthBefore_succ_eq hj
  have hlt := h.1
  rw [blockEnd_eq hl (by omega) (by omega)]
  refine Nat.le_of_not_lt fun hgt => ?_
  rcases depthBefore_behind hl h1 with hb | hb
  · have hm := h.2 (j + 1 + blockLength 0 (lines.drop (j + 1))) (by omega) (by omega)
    omega
  · omega

theorem depthBefore_ne_zero (hl : ∀ line ∈ lines, line.IsScanned) (hj : j < lines.length)
    (h0 : depthBefore lines j = 0) (h1 : depthBefore lines (j + 1) = 1) (hlt : j < i)
    (hle : i ≤ blockEnd lines j) : depthBefore lines i ≠ 0 := by
  rw [blockEnd_eq hl hj h1] at hle
  have henc := encloses_of_le hl (by omega) hlt hle
  have hin := henc.2 i hlt (Nat.le_refl i)
  omega

end Markup
