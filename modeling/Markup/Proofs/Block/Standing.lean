import Markup.Proofs.Block.Extent
import Markup.Proofs.Statement

/-!
# Where the reading of a block is

Behind some of its lines the reading of a block is before a statement, of the block itself or of a
child that is open, or it passes over the lines of a block (`Standing`).  The lines of a child are
looked at once for the child and once more for each block around it; but only one of these readings
is before a statement, for the others are in a block that they pass over (`standing_passing`).
-/

namespace Markup

/-! ## where a reading is -/

/-- where the reading of a block is behind some of its lines -/
inductive Standing where
  /-- before a statement of the root, or of a child -/
  | statement (isRoot : Bool)
  /-- in a block that is passed over -/
  | passing
  /-- behind the block -/
  | closed
  /-- nowhere, for a bracket has ended it -/
  | abandoned
  deriving DecidableEq, Repr

namespace Standing

/-- behind a child that is closed, the block around it goes on -/
def orElse : Standing → Standing → Standing
  | closed, around => around
  | child, _ => child

def isOpen : Standing → Bool
  | statement _ | passing => true
  | closed | abandoned => false

/-- what is reported if the next line is a statement with this problem -/
def reports (p : Problem) : Standing → List Problem
  | statement _ => [p]
  | passing | closed | abandoned => []

end Standing

/-- where the reading of a block is behind these lines; before them `depth` blocks are open in it, or
a `detached` header waits for its opener.  While the block of a child is open it is where the reading
of the child is. -/
def standing (isRoot : Bool) (depth : Nat) (detached : Bool) : List Line → Standing
  | [] => if depth = 0 then .statement isRoot else .passing
  | line :: lines =>
    if line.first = blockClose then
      match depth with
      | 0 => .closed
      | depth + 1 => standing isRoot depth detached lines
    else if depth ≠ 0 then
      standing isRoot (if line.opens then depth + 1 else depth) detached lines
    else if detached ∧ line.isLoneOpen then standing isRoot 1 false lines
    else
      match Statement.ofLine isRoot line with
      | .property _ _ | .declareVariable _ _ | .rejected _ =>
        standing isRoot (depthAfterStatement line) false lines
      | .unclosed _ => .abandoned
      | .child _ _ detached =>
        let child :=
          if detached then
            match lines with
            | opener :: body => if opener.isLoneOpen then standing false 0 false body else .closed
            | [] => .closed
          else standing false 0 false lines
        child.orElse (standing isRoot (depthAfterStatement line) detached lines)

/-- where the reading of a child is behind these lines, which follow its header -/
def standingInChild (detached : Bool) (lines : List Line) : Standing :=
  if detached then
    match lines with
    | opener :: body => if opener.isLoneOpen then standing false 0 false body else .closed
    | [] => .closed
  else standing false 0 false lines

/-- where the reading of a block is behind these lines, which follow a statement -/
def standingBehind (isRoot : Bool) (line : Line) (lines : List Line) : Statement → Standing
  | .unclosed _ => .abandoned
  | .child _ _ detached =>
    (standingInChild detached lines).orElse
      (standing isRoot (depthAfterStatement line) detached lines)
  | _ => standing isRoot (depthAfterStatement line) false lines

section
variable {isRoot detached : Bool} {depth : Nat} {line : Line} (lines : List Line)

theorem standing_zero_close (h : line.first = blockClose) :
    standing isRoot 0 detached (line :: lines) = .closed := by
  rw [standing.eq_def]
  simp only
  rw [if_pos h]

theorem standing_succ_close (h : line.first = blockClose) :
    standing isRoot (depth + 1) detached (line :: lines) = standing isRoot depth detached lines := by
  rw [standing.eq_def]
  simp only
  rw [if_pos h]

theorem standing_succ_cons (h : line.first ≠ blockClose) :
    standing isRoot (depth + 1) detached (line :: lines) =
      standing isRoot ((if line.opens then depth + 1 else depth) + 1) detached lines := by
  rw [standing.eq_def]
  simp only
  rw [if_neg h, if_pos (Nat.succ_ne_zero depth), opens_succ]

theorem standing_opener (h : detached = true ∧ line.isLoneOpen = true) :
    standing isRoot 0 detached (line :: lines) = standing isRoot 1 false lines := by
  rw [standing.eq_def]
  simp only
  rw [if_neg (Line.opens_of_isLoneOpen h.2).2, if_neg (not_not_intro rfl), if_pos h]

theorem standing_statement (hc : line.first ≠ blockClose)
    (hd : ¬(detached = true ∧ line.isLoneOpen = true)) :
    standing isRoot 0 detached (line :: lines) =
      standingBehind isRoot line lines (Statement.ofLine isRoot line) := by
  rw [standing.eq_def]
  simp only
  rw [if_neg hc, if_neg (not_not_intro rfl), if_neg hd]
  cases Statement.ofLine isRoot line <;> rfl

end

/-! ### readings around one another -/

/-- the header of a child opens its block, or leaves it to the next line -/
theorem depthAfterStatement_ne_zero {isRoot : Bool} {line : Line} {typeName : String}
    {name? : Option String} (h : Statement.ofLine isRoot line = .child typeName name? false) :
    depthAfterStatement line ≠ 0 := by
  obtain ⟨i, hi, -⟩ := Statement.exists_end_of_child h
  rw [depthAfterStatement, if_pos (Line.opens_of_token_eq hi)]
  exact Nat.one_ne_zero

/-- while the block of a child is open, a reading passes over its lines that has a block open, or that
comes to the opener of the child behind a detached header -/
theorem standing_passing_child {detached : Bool} {lines : List Line}
    (ih : ∀ n k isRoot detached, (standing false 0 false (lines.drop n)).isOpen = true →
      standing isRoot (k + 1) detached (lines.drop n) = .passing)
    (h : (standingInChild detached lines).isOpen = true) {depth : Nat} {detached' : Bool}
    (hd : depth = 0 → detached = true ∧ detached' = true) (isRoot : Bool) :
    standing isRoot depth detached' lines = .passing := by
  unfold standingInChild at h
  cases detached with
  | false =>
    cases depth with
    | zero => exact absurd (hd rfl).1 Bool.false_ne_true
    | succ depth => exact ih 0 depth isRoot detached' h
  | true =>
    cases lines with
    | nil => exact absurd h Bool.false_ne_true
    | cons opener body =>
      by_cases ho : opener.isLoneOpen = true
      · obtain ⟨hopens, hc⟩ := Line.opens_of_isLoneOpen ho
        simp only [if_true, if_pos ho] at h
        cases depth with
        | zero =>
          rw [standing_opener body ⟨(hd rfl).2, ho⟩]
          exact ih 1 0 isRoot false h
        | succ depth =>
          rw [standing_succ_cons body hc, if_pos hopens]
          exact ih 1 (depth + 1) isRoot detached' h
      · simp only [if_true, if_neg ho] at h
        exact absurd h Bool.false_ne_true

/-- while a block is open, a reading that has more blocks open passes over its lines -/
theorem standing_passing {isRoot : Bool} {depth : Nat} {detached : Bool} {lines : List Line}
    (h : (standing isRoot depth detached lines).isOpen = true) (k : Nat) (isRoot' detached' : Bool) :
    standing isRoot' (depth + k + 1) detached' lines = .passing := by
  match lines with
  | [] => rw [standing, if_neg (Nat.succ_ne_zero _)]
  | line :: lines =>
    -- a child is read from the line behind its header, or from the one behind its opener
    have ih : ∀ {isRoot depth detached n}, (standing isRoot depth detached (lines.drop n)).isOpen = true →
        ∀ k isRoot' detached', standing isRoot' (depth + k + 1) detached' (lines.drop n) = .passing :=
      fun h k isRoot' detached' => standing_passing h k isRoot' detached'
    by_cases hc : line.first = blockClose
    · rw [standing_succ_close lines hc]
      cases depth with
      | zero =>
        rw [standing_zero_close lines hc] at h
        exact absurd h Bool.false_ne_true
      | succ depth =>
        rw [standing_succ_close lines hc] at h
        rw [Nat.add_right_comm depth 1 k]
        exact ih (n := 0) h k isRoot' detached'
    · have hopens : (if line.opens then depth + k + 1 else depth + k) =
          (if line.opens then depth + 1 else depth) + k := by
        split <;> omega
      rw [standing_succ_cons lines hc, hopens]
      cases depth with
      | succ depth =>
        rw [standing_succ_cons lines hc, ← opens_succ] at h
        exact ih (n := 0) h k isRoot' detached'
      | zero =>
        show standing isRoot' (depthAfterStatement line + k + 1) detached' lines = .passing
        by_cases hd : detached = true ∧ line.isLoneOpen = true
        · rw [standing_opener lines hd] at h
          rw [depthAfterStatement, if_pos (Line.opens_of_isLoneOpen hd.2).1]
          exact ih (n := 0) h k isRoot' detached'
        · rw [standing_statement lines hc hd] at h
          cases hs : Statement.ofLine isRoot line with
          | child typeName name? detached'' =>
            rw [hs] at h
            have hchild : (standingInChild detached'' lines).isOpen = true →
                standing isRoot' (depthAfterStatement line + k + 1) detached' lines = .passing :=
              fun ho => standing_passing_child
                (fun n k isRoot detached h => Nat.zero_add k ▸ ih (n := n) h k isRoot detached) ho
                (fun h0 => absurd h0 (Nat.succ_ne_zero _)) isRoot'
            -- behind a closed child the block around it is what is open
            cases hst : standingInChild detached'' lines with
            | closed =>
              rw [standingBehind, hst] at h
              exact ih (n := 0) h k isRoot' detached'
            | abandoned =>
              rw [standingBehind, hst] at h
              exact absurd h Bool.false_ne_true
            | _ => exact hchild (by rw [hst]; rfl)
          | unclosed _ =>
            rw [hs] at h
            exact absurd h Bool.false_ne_true
          | _ =>
            rw [hs] at h
            exact ih (n := 0) h k isRoot' detached'
termination_by lines.length
decreasing_by
  rw [List.length_drop, List.length_cons]
  omega

section
variable {isRoot detached : Bool} {line : Line} {lines : List Line} {typeName : String}
  {name? : Option String}

/-- while a child is open, the reading around it passes over its lines -/
theorem standing_around_child (hst : Statement.ofLine isRoot line = .child typeName name? detached)
    (ho : (standingInChild detached lines).isOpen = true) :
    standing isRoot (depthAfterStatement line) detached lines = .passing := by
  refine standing_passing_child (fun n k isRoot' detached' ho => ?_) ho (fun h0 => ?_) isRoot
  · rw [← Nat.zero_add k]
    exact standing_passing ho k isRoot' detached'
  · cases detached with
    | false => exact absurd h0 (depthAfterStatement_ne_zero hst)
    | true => exact ⟨rfl, rfl⟩

/-- the reading around a child is before a statement, so the child is closed -/
theorem standingBehind_of_around (hst : Statement.ofLine isRoot line = .child typeName name? detached)
    (ha : standingInChild detached lines ≠ .abandoned) {r : Bool}
    (h : standing isRoot (depthAfterStatement line) detached lines = .statement r) :
    standingBehind isRoot line lines (.child typeName name? detached) = .statement r := by
  rw [standingBehind, h]
  cases hc : standingInChild detached lines with
  | closed => rfl
  | abandoned => exact absurd hc ha
  | _ => cases h.symm.trans (standing_around_child hst (by rw [hc]; rfl))

end

end Markup
