import Markup.Proofs.Block.Extent
import Markup.Proofs.Report
import Markup.Proofs.Statement

/-!
# What is told of a block

A line in a block is looked at once for each block around it, but it is a statement of one of them
only.  So the reading of a block tells of each line at most once and in the order of the lines, those
of the children included (`tells_readBlock`): a child tells of the lines of its own block, and the
block around it goes on behind them.

* `Line.Fails`       what is wrong with the statement on a line;
* `passedLength`     how many lines go by before a block goes on.
-/

namespace Markup

/-! ## statements at fault -/

/-- the value behind the equals sign at this place has a bracket without a partner -/
structure Line.LeavesOpen (line : Line) (sign : Nat) (b : Unclosed) : Prop where
  equals : line.token sign = "="
  unclosed : requireClosed line.number (line.tokens.drop (sign + 1)) = .error b

/-- what is wrong with the statement on a line, in the body of a root or of a child -/
inductive Line.Fails (line : Line) : Problem → Prop
  | rejected {isRoot : Bool} {p : Problem} (h : Statement.ofLine isRoot line = .rejected p) :
      line.Fails p
  | unclosed {isRoot : Bool} {b : Unclosed} (h : Statement.ofLine isRoot line = .unclosed b) :
      line.Fails (.unclosedBracket b)

/-- something is wrong with the statement on the line at place `i` -/
def FailsAt (lines : List Line) (i : Nat) (p : Problem) : Prop :=
  ∃ line, lines[i]? = some line ∧ line.Fails p

namespace Statement

/-- the bracket that a statement is given up for -/
def bracket? : Statement → Option Unclosed
  | unclosed b | rejected (.unclosedBracket b) => some b
  | _ => none

variable {line : Line} {b : Unclosed}

theorem bracket?_withValue {n : Nat} {tokens : List String} {f : String → Statement}
    (hf : ∀ value, (f value).bracket? = none) (h : (withValue n tokens f).bracket? = some b) :
    requireClosed n tokens = .error b := by
  unfold withValue at h
  cases hc : requireClosed n tokens with
  | error b' =>
    rw [hc] at h
    exact congrArg Except.error (Option.some.inj h)
  | ok u =>
    rw [hc, hf] at h
    exact absurd h nofun

theorem bracket?_variableOfLine {isRoot : Bool}
    (h : (variableOfLine isRoot line).bracket? = some b) : line.LeavesOpen 2 b := by
  unfold variableOfLine at h
  simp only at h
  split at h
  · exact absurd h nofun
  · split at h
    · exact absurd h nofun
    · split at h
      · next hs => exact ⟨hs, bracket?_withValue (fun _ => rfl) h⟩
      · split at h <;> exact absurd h nofun

theorem bracket?_childBefore (typeName : String) (name? : Option String) (token : String) :
    (childBefore typeName name? token).bracket? = none := by
  unfold childBefore
  split
  · rfl
  · split <;> rfl

theorem bracket?_childOfLine (line : Line) : (childOfLine line).bracket? = none := by
  unfold childOfLine
  simp only
  split
  · rfl
  · split <;> exact bracket?_childBefore _ _ _

theorem bracket?_propertyOfLine (h : (propertyOfLine line).bracket? = some b) :
    line.LeavesOpen 1 b := by
  unfold propertyOfLine at h
  simp only at h
  split at h
  · next hs => exact ⟨hs, bracket?_withValue (fun _ => rfl) h⟩
  · split at h <;> exact absurd h nofun

theorem bracket?_ofLine {isRoot : Bool} (h : (ofLine isRoot line).bracket? = some b) :
    line.LeavesOpen (if line.first = "var" then 2 else 1) b := by
  unfold ofLine at h
  split at h
  · exact absurd h nofun
  · by_cases hv : line.first = "var"
    · rw [if_pos hv] at h ⊢
      exact bracket?_variableOfLine h
    · rw [if_neg hv] at h ⊢
      split at h
      · rw [bracket?_childOfLine] at h
        exact absurd h nofun
      · exact bracket?_propertyOfLine h

end Statement

theorem Line.Fails.leavesOpen {line : Line} {b : Unclosed} (h : line.Fails (.unclosedBracket b)) :
    line.LeavesOpen (if line.first = "var" then 2 else 1) b := by
  cases h with
  | rejected h => exact Statement.bracket?_ofLine (congrArg Statement.bracket? h)
  | unclosed h => exact Statement.bracket?_ofLine (congrArg Statement.bracket? h)

/-! ## the lines that go by -/

/-- how many of these lines go by before a block goes on, with `depth` blocks open in it or behind a
`detached` header -/
def passedLength : Nat → Bool → List Line → Nat
  | depth + 1, _, lines => blockLength depth lines
  | 0, detached, opener :: body =>
    if detached ∧ opener.isLoneOpen then blockLength 0 body + 1 else 0
  | 0, _, [] => 0

section
variable {detached : Bool} {line : Line}

theorem passedLength_succ (depth : Nat) (detached : Bool) (lines : List Line) :
    passedLength (depth + 1) detached lines = blockLength depth lines := by
  rw [passedLength]

theorem passedLength_opener (h : detached = true ∧ line.isLoneOpen = true) (body : List Line) :
    passedLength 0 detached (line :: body) = blockLength 0 body + 1 := by
  rw [passedLength, if_pos h]

theorem passedLength_statement (h : ¬(detached = true ∧ line.isLoneOpen = true))
    (lines : List Line) : passedLength 0 detached (line :: lines) = 0 := by
  rw [passedLength, if_neg h]

theorem passedLength_le (depth : Nat) (detached : Bool) (lines : List Line) :
    passedLength depth detached lines ≤ blockLength depth lines := by
  cases depth with
  | succ depth =>
    rw [passedLength_succ, blockLength_succ]
    omega
  | zero =>
    cases lines with
    | nil => exact Nat.le_refl 0
    | cons line lines =>
      by_cases h : detached = true ∧ line.isLoneOpen = true
      · obtain ⟨ho, hf⟩ := Line.opens_of_isLoneOpen h.2
        rw [passedLength_opener h, blockLength_cons hf, if_pos ho]
        exact Nat.succ_le_succ (blockLength_zero_le 1 lines)
      · rw [passedLength_statement h]
        exact Nat.zero_le _

/-- behind a closer no more lines go by than before it -/
theorem blockLength_le_passedLength (h : line.first = blockClose) (depth : Nat) (detached : Bool)
    (lines : List Line) :
    blockLength depth (line :: lines) ≤ passedLength depth detached lines + 1 := by
  cases depth with
  | zero =>
    rw [blockLength_zero_close h]
    omega
  | succ depth =>
    rw [passedLength_succ]
    exact Nat.le_of_eq (blockLength_succ_close h depth lines)

end

/-! ## what the reading tells -/

/-- what a block that goes on at place `first` tells, with any blocks open in it -/
def TellsFrom (catalog : Catalog) (lines : List Line) (first : Nat) : Prop :=
  ∀ (isRoot : Bool) (e : Element) (depth : Nat) (detached : Bool),
    Tells (FailsAt lines) (first + passedLength depth detached (lines.drop first))
      (first + blockLength depth (lines.drop first))
      (readBlock catalog isRoot e depth detached first (lines.drop first)).told

section
variable {catalog : Catalog} {lines : List Line} {first : Nat} {line : Line}

/-- a child tells of the lines that go by before the block around it goes on -/
theorem tells_readChild (ih : ∀ k, first < k → TellsFrom catalog lines k) (child : Element)
    (detached : Bool) :
    Tells (FailsAt lines) (first + 1)
      (first + 1 + passedLength (if detached then 0 else 1) detached (lines.drop (first + 1)))
      (readChild catalog child detached (first + 1) (lines.drop (first + 1))).told := by
  unfold readChild
  cases detached with
  | false =>
    exact (ih (first + 1) (Nat.lt_succ_self _) false child 0 false).mono (by omega) (Nat.le_refl _)
  | true =>
    cases hrest : lines.drop (first + 1) with
    | nil => exact tells_nil _ _ _
    | cons opener body =>
      have hbody : lines.drop (first + 1 + 1) = body := drop_succ_of_cons hrest
      simp only [if_true]
      by_cases ho : opener.isLoneOpen = true
      · have hchild := ih (first + 1 + 1) (by omega) false child 0 false
        rw [hbody] at hchild
        rw [if_pos ho, passedLength_opener ⟨rfl, ho⟩]
        exact hchild.mono (by omega) (by omega)
      · rw [if_neg ho]
        exact tells_nil _ _ _

/-- a line that the block passes over, and one that closes it or a block in it -/
theorem tells_passed (hdrop : lines.drop first = line :: lines.drop (first + 1))
    (ih : TellsFrom catalog lines (first + 1)) (isRoot : Bool) (e : Element) (depth : Nat)
    (detached : Bool) (h : line.first = blockClose ∨ depth ≠ 0) :
    Tells (FailsAt lines) (first + passedLength depth detached (lines.drop first))
      (first + blockLength depth (lines.drop first))
      (readBlock catalog isRoot e depth detached first (lines.drop first)).told := by
  rw [hdrop]
  cases depth with
  | zero =>
    have hc := h.resolve_right (not_not_intro rfl)
    rw [readBlock_close hc]
    exact (tells_nil _ _ _).line first
  | succ depth =>
    rw [readBlock, Traced.told_after, passedLength_succ]
    refine Tells.line ?_ first
    by_cases hc : line.first = blockClose
    · have hle := blockLength_le_passedLength hc depth detached (lines.drop (first + 1))
      rw [if_pos hc, blockLength_succ_close hc]
      exact (ih isRoot e depth detached).mono (by omega) (by omega)
    · have hnext := ih isRoot e ((if line.opens then depth + 1 else depth) + 1) detached
      rw [passedLength_succ] at hnext
      rw [if_neg hc, if_pos (Nat.succ_ne_zero depth), opens_succ, blockLength_cons hc,
        blockLength_cons hc, opens_succ]
      exact hnext.mono (by omega) (by omega)

/-- a line that is a statement of the block itself, or the opener of a detached child -/
theorem tells_statement (hs : line.IsScanned) (hline : lines[first]? = some line)
    (hdrop : lines.drop first = line :: lines.drop (first + 1))
    (ih : ∀ k, first < k → TellsFrom catalog lines k) (isRoot : Bool) (e : Element)
    (detached : Bool) (hc : line.first ≠ blockClose) :
    Tells (FailsAt lines) (first + passedLength 0 detached (lines.drop first))
      (first + blockLength 0 (lines.drop first))
      (readBlock catalog isRoot e 0 detached first (lines.drop first)).told := by
  have hnext : ∀ e detached, Tells (FailsAt lines) (first + 1)
      (first + (blockLength (depthAfterStatement line) (lines.drop (first + 1)) + 1))
      (readBlock catalog isRoot e (depthAfterStatement line) detached (first + 1)
        (lines.drop (first + 1))).told := fun e detached =>
    (ih (first + 1) (Nat.lt_succ_self _) isRoot e _ detached).mono (by omega) (by omega)
  have hfault : ∀ {p}, line.Fails p → FailsAt lines first p := fun hp => ⟨line, hline, hp⟩
  rw [hdrop, readBlock, if_neg hc, if_neg (not_not_intro rfl), Traced.told_after,
    blockLength_statement hc]
  by_cases hb : detached = true ∧ line.isLoneOpen = true
  · have hopener := ih (first + 1) (Nat.lt_succ_self _) isRoot e 1 false
    rw [passedLength_succ] at hopener
    rw [if_pos hb, passedLength_opener hb, depthAfterStatement,
      if_pos (Line.opens_of_isLoneOpen hb.2).1]
    exact (hopener.mono (by omega) (by omega)).line first
  · rw [if_neg hb, passedLength_statement hb, Nat.add_zero]
    cases hst : Statement.ofLine isRoot line with
    | property name value => exact ((hnext _ false).mono (Nat.le_succ _) (Nat.le_refl _)).line first
    | declareVariable name value =>
      exact ((hnext _ false).mono (Nat.le_succ _) (Nat.le_refl _)).line first
    | rejected problem =>
      rw [Traced.told_after]
      exact (hnext e false).problem (by omega) (hfault (.rejected hst))
    | unclosed bracket => exact (tells_nil _ _ _).problem (by omega) (hfault (.unclosed hst))
    | child typeName name? detached' =>
      have hopen : depthAfterStatement line = if detached' then 0 else 1 := by
        rw [depthAfterStatement, Statement.opens_of_child hs hst]
        cases detached' <;> rfl
      have hchild := tells_readChild ih (.ofHeader catalog typeName name?) detached'
      have hrest := fun e => ih (first + 1) (Nat.lt_succ_self _) isRoot e (depthAfterStatement line)
        detached'
      have hle := passedLength_le (depthAfterStatement line) detached' (lines.drop (first + 1))
      rw [← hopen] at hchild
      have hbind := hchild.bind (fun c => hrest (e.addChild c)) (Nat.le_add_right _ _) (by omega)
      exact (hbind.mono (Nat.le_succ _) (by omega)).line first

end

/-- the reading of a block tells of its lines in order, and of no line twice -/
theorem tells_readBlock (catalog : Catalog) {lines : List Line}
    (hl : ∀ line ∈ lines, line.IsScanned) (first : Nat) : TellsFrom catalog lines first := by
  intro isRoot e depth detached
  by_cases hlt : first < lines.length
  · have hdrop : lines.drop first = lines[first] :: lines.drop (first + 1) :=
      List.drop_eq_getElem_cons hlt
    have ih : ∀ k, first < k → TellsFrom catalog lines k := fun k _ =>
      tells_readBlock catalog hl k
    by_cases h : lines[first].first = blockClose ∨ depth ≠ 0
    · exact tells_passed hdrop (ih (first + 1) (Nat.lt_succ_self _)) isRoot e depth detached h
    · obtain ⟨hc, hd⟩ := not_or.mp h
      obtain rfl : depth = 0 := not_not.mp hd
      exact tells_statement (hl _ (List.getElem_mem hlt)) (List.getElem?_eq_getElem hlt) hdrop ih
        isRoot e detached hc
  · rw [List.drop_eq_nil_of_le (Nat.le_of_not_lt hlt), readBlock_nil]
    exact tells_nil _ _ _
termination_by lines.length - first

/-- what the element of a header tells lies in its block -/
theorem Header.tells_build (catalog : Catalog) {lines : List Line}
    (hl : ∀ line ∈ lines, line.IsScanned) (h : Header) :
    Tells (FailsAt lines) (h.start + 1)
      (h.start + 1 + blockLength 0 (lines.drop (h.start + 1))) (h.build catalog lines).told := by
  have hblock := (tells_readBlock catalog hl (h.start + 1) true (.bare h.name .userDefined) 0
    false).mono (Nat.le_add_right _ _) (Nat.le_refl _)
  rw [Header.build, Traced.told_after]
  exact (hblock.bind (fun _ => tells_nil _ _ _) (Nat.le_add_right _ _) (Nat.le_refl _)).note _

end Markup
