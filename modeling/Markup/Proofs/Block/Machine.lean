import Markup.Proofs.Block.Extent
import Markup.Proofs.Statement

/-!
# Reading a block in one pass

`Machine.run` reads the lines of an element declaration one after the other, each once, and keeps
the blocks that are open on a stack.  Only the innermost block acts on a line:

* the block of a child header is the block of an element;
* any other opener opens a block that is skipped, in which only braces count;
* a closer closes the innermost block, and with the block of the root the reading is over.

A header without an opener leaves its child waiting for the next line, which opens the block of the
child if it is a lone opener.

`readBlock` reads the lines of a child twice, once for the child and once for the block around it.
It agrees with the machine all the same: same tree or same unclosed bracket, same problems at the
same lines (`Header.build_agrees_machine`).
-/

namespace Markup

/-! ## the stack -/

/-- the blocks that are open, from the innermost one to that of the root -/
inductive BlockStack where
  | root (e : Element)
  | child (e : Element) (outer : BlockStack)
  | skipped (outer : BlockStack)

namespace BlockStack

/-- the element of the innermost block has one more child -/
def addChild (c : Element) : BlockStack → BlockStack
  | root e => root (e.addChild c)
  | child e outer => child (e.addChild c) outer
  | skipped outer => skipped outer

/-- how many blocks are open in that of the root -/
def height : BlockStack → Nat
  | root _ => 0
  | child _ outer | skipped outer => outer.height + 1

theorem height_addChild (c : Element) (s : BlockStack) : (s.addChild c).height = s.height := by
  cases s <;> rfl

def closeAll : BlockStack → Element
  | root e => e
  | child e outer => (outer.addChild e).closeAll
  | skipped outer => outer.closeAll
termination_by s => s.height
decreasing_by
  · rw [height_addChild]; exact Nat.lt_succ_self _
  · exact Nat.lt_succ_self _

/-- the stack after a line, with one more skipped block if the line ends in an opener -/
def opening (line : Line) (s : BlockStack) : BlockStack := if line.endsOpen then skipped s else s

end BlockStack

/-! ## the machine -/

/-- the open blocks, and the child of a header whose opener may stand on the next line -/
structure Machine where
  stack : BlockStack
  waiting : Option Element := none

/-- what a line does to the machine -/
inductive Move where
  | go (problem? : Option Problem) (m : Machine)
  /-- the block of the root is closed -/
  | closed (root : Element)
  /-- a value has an unclosed bracket -/
  | abandoned (bracket : Unclosed)

namespace Machine

variable (catalog : Catalog)

/-- a statement in the block of an element; `block` puts the element back on the stack -/
def actIn (isRoot : Bool) (e : Element) (block : Element → BlockStack) (line : Line) : Move :=
  match Statement.ofLine isRoot line with
  | .property name value => .go none ⟨(block (e.addProperty ⟨name, value⟩)).opening line, none⟩
  | .declareVariable name value =>
    .go none ⟨(block (e.addVariable name ⟨value, .unresolved⟩)).opening line, none⟩
  | .rejected problem => .go (some problem) ⟨(block e).opening line, none⟩
  | .unclosed bracket => .abandoned bracket
  | .child typeName name? detached =>
    let child := Element.ofHeader catalog typeName name?
    if detached then .go none ⟨block e, some child⟩ else .go none ⟨.child child (block e), none⟩

/-- a line in the innermost block -/
def act : BlockStack → Line → Move
  | .root e, line => if line.isLoneClose then .closed e else actIn catalog true e .root line
  | .child e outer, line =>
    if line.isLoneClose then .go none ⟨outer.addChild e, none⟩
    else actIn catalog false e (.child · outer) line
  | .skipped outer, line =>
    if line.isLoneClose then .go none ⟨outer, none⟩
    else .go none ⟨(BlockStack.skipped outer).opening line, none⟩

/-- a line; a child that waits gets its block if the line is a lone opener, and else it has none -/
def step (m : Machine) (line : Line) : Move :=
  match m.waiting with
  | none => act catalog m.stack line
  | some c =>
    if line.isLoneOpen then .go none ⟨.child c m.stack, none⟩
    else act catalog (m.stack.addChild c) line

/-- the root at the end of the lines -/
def finish (m : Machine) : Element :=
  match m.waiting with
  | none => m.stack.closeAll
  | some c => (m.stack.addChild c).closeAll

/-- the lines from place `index` on, until the block of the root is closed -/
def run (m : Machine) (index : Nat) : List Line → Traced Element
  | [] => .pure m.finish
  | line :: lines => Traced.after [.line index] <|
    match m.step catalog line with
    | .go none m => m.run (index + 1) lines
    | .go (some problem) m => (m.run (index + 1) lines).after [.problem problem]
    | .closed root => .pure root
    | .abandoned bracket => .abandon bracket

/-- the machine before the first line of a block -/
def start (h : Header) : Machine := ⟨.root (.bare h.name .userDefined), none⟩

/-- the element of a header, read by the machine -/
def build (lines : List Line) (h : Header) : Traced DeclaredElement :=
  ((start h).run catalog (h.start + 1) (lines.drop (h.start + 1))).bind fun root =>
    .pure ⟨root, h.file⟩

/-! ## how the machine runs -/

theorem run_nil (m : Machine) (index : Nat) : m.run catalog index [] = .pure m.finish := by
  rw [run]

theorem linesSeen_run (m : Machine) (index : Nat) (lines : List Line) :
    ∃ n ≤ lines.length, linesSeen (m.run catalog index lines).events = List.range' index n := by
  induction lines generalizing m index with
  | nil =>
    rw [run_nil]
    exact ⟨0, Nat.le_refl 0, rfl⟩
  | cons line lines ih =>
    rw [run]
    cases m.step catalog line with
    | go problem? m =>
      obtain ⟨n, hn, he⟩ := ih m (index + 1)
      refine ⟨n + 1, Nat.succ_le_succ hn, ?_⟩
      rw [List.range'_succ, ← he]
      cases problem? <;> rfl
    | closed root => exact ⟨1, Nat.succ_le_succ (Nat.zero_le _), rfl⟩
    | abandoned bracket => exact ⟨1, Nat.succ_le_succ (Nat.zero_le _), rfl⟩

theorem isAnchored_run (m : Machine) (index : Nat) (lines : List Line) :
    (m.run catalog index lines).IsAnchored := by
  cases lines with
  | nil =>
    rw [run_nil]
    exact Traced.isAnchored_pure _
  | cons line lines =>
    rw [run]
    exact Traced.isAnchored_after_line index _

/-- a line that is not reported on can be left out -/
theorem run_cons_agrees {m m' : Machine} {line : Line} (h : m.step catalog line = .go none m')
    (index : Nat) (lines : List Line) :
    (m.run catalog index (line :: lines)).Agrees (m'.run catalog (index + 1) lines) := by
  rw [run, h]
  exact (isAnchored_run catalog m' (index + 1) lines).after_line_agrees index

/-- the stack with some more skipped blocks -/
def skips : Nat → BlockStack → BlockStack
  | 0, s => s
  | n + 1, s => .skipped (skips n s)

theorem closeAll_skips (n : Nat) (s : BlockStack) : (skips n s).closeAll = s.closeAll := by
  induction n with
  | zero => rfl
  | succ n ih =>
    show (BlockStack.skipped (skips n s)).closeAll = _
    rw [BlockStack.closeAll, ih]

/-- a skipped block is passed over up to its closer -/
theorem run_skips_agrees (s : BlockStack) (depth index : Nat) {lines : List Line}
    (hl : ∀ line ∈ lines, line.IsScanned) :
    (run catalog ⟨skips (depth + 1) s, none⟩ index lines).Agrees
      (run catalog ⟨s, none⟩ (index + blockLength depth lines)
        (lines.drop (blockLength depth lines))) := by
  induction lines generalizing depth index with
  | nil =>
    rw [List.drop_nil, run_nil, run_nil]
    show Traced.Agrees (.pure (skips (depth + 1) s).closeAll) (.pure s.closeAll)
    rw [closeAll_skips]
    exact Traced.Agrees.refl _
  | cons line lines ih =>
    have hline := hl line List.mem_cons_self
    have hlines : ∀ l ∈ lines, l.IsScanned := fun l hm => hl l (List.mem_cons_of_mem _ hm)
    by_cases h : line.first = blockClose
    · have hc : line.isLoneClose = true := by
        rw [← hline.closes_eq]; exact hline.first_eq_blockClose_iff.mp h
      have hstep : step catalog ⟨skips (depth + 1) s, none⟩ line =
          .go none ⟨skips depth s, none⟩ := if_pos hc
      refine (run_cons_agrees catalog hstep index lines).trans ?_
      cases depth with
      | zero =>
        rw [blockLength_zero_close h, List.drop_succ_cons, List.drop_zero]
        exact Traced.Agrees.refl _
      | succ depth =>
        have hi : index + (blockLength depth lines + 1) = index + 1 + blockLength depth lines := by
          omega
        rw [blockLength_succ_close h, List.drop_succ_cons, hi]
        exact ih depth (index + 1) hlines
    · have hc : line.isLoneClose ≠ true := by
        rw [← hline.closes_eq]; exact fun e => h (hline.first_eq_blockClose_iff.mpr e)
      have hstep : step catalog ⟨skips (depth + 1) s, none⟩ line =
          .go none ⟨skips ((if line.opens then depth + 1 else depth) + 1) s, none⟩ := by
        show (if line.isLoneClose then _ else _) = _
        rw [if_neg hc, BlockStack.opening, hline.opens_eq]
        cases line.endsOpen <;> rfl
      have hi : index + (blockLength (if line.opens then depth + 1 else depth) lines + 1) =
          index + 1 + blockLength (if line.opens then depth + 1 else depth) lines := by omega
      rw [blockLength_cons h, List.drop_succ_cons, hi]
      exact (run_cons_agrees catalog hstep index lines).trans (ih _ (index + 1) hlines)

/-! ## agreement -/

/-- the stack whose innermost block is that of an element, inside these blocks if there are any -/
def scope : Option BlockStack → Element → BlockStack
  | none, e => .root e
  | some outer, e => .child e outer

/-- what comes behind the block of an element -/
def resume (outer? : Option BlockStack) (index : Nat) (lines : List Line) (e : Element) :
    Traced Element :=
  match outer? with
  | none => .pure e
  | some outer => run catalog ⟨outer.addChild e, none⟩ index lines

variable {catalog} {outer? : Option BlockStack}

theorem isAnchored_resume (index : Nat) (lines : List Line) (e : Element) :
    (resume catalog outer? index lines e).IsAnchored := by
  cases outer? with
  | none => exact Traced.isAnchored_pure e
  | some outer => exact isAnchored_run catalog _ index lines

theorem addChild_scope (e c : Element) : (scope outer? e).addChild c = scope outer? (e.addChild c) := by
  cases outer? <;> rfl

theorem run_scope_nil (e : Element) (index i : Nat) :
    run catalog ⟨scope outer? e, none⟩ index [] = resume catalog outer? i [] e := by
  rw [run_nil]
  cases outer? with
  | none =>
    show Traced.pure (BlockStack.root e).closeAll = Traced.pure e
    rw [BlockStack.closeAll]
  | some outer =>
    show Traced.pure (BlockStack.child e outer).closeAll = run catalog _ i []
    rw [BlockStack.closeAll, run_nil]
    rfl

/-- a line that is no closer acts in the innermost block -/
theorem step_scope {line : Line} (hc : line.isLoneClose ≠ true) (e : Element) :
    step catalog ⟨scope outer? e, none⟩ line =
      actIn catalog outer?.isNone e (scope outer?) line := by
  cases outer? with
  | none => exact if_neg hc
  | some outer => exact if_neg hc

/-- what the agreement of the machine with `readBlock` says of these lines -/
def RunsAs (catalog : Catalog) (lines : List Line) : Prop :=
  ∀ (outer? : Option BlockStack) (e : Element) (index : Nat),
    (run catalog ⟨scope outer? e, none⟩ index lines).Agrees
      ((readBlock catalog outer?.isNone e 0 false index lines).bind
        (resume catalog outer? (index + blockLength 0 lines) (lines.drop (blockLength 0 lines))))

/-- from a closed inner block on -/
theorem RunsAs.behind {lines : List Line} (e : Element) (index : Nat)
    (ih : RunsAs catalog (lines.drop (blockLength 0 lines))) :
    (run catalog ⟨scope outer? e, none⟩ (index + blockLength 0 lines)
        (lines.drop (blockLength 0 lines))).Agrees
      ((readBlock catalog outer?.isNone e 1 false index lines).bind
        (resume catalog outer? (index + blockLength 1 lines) (lines.drop (blockLength 1 lines)))) := by
  have hi : index + blockLength 1 lines = index + blockLength 0 lines +
      blockLength 0 (lines.drop (blockLength 0 lines)) := by
    rw [blockLength_succ]; omega
  have hd : lines.drop (blockLength 1 lines) = (lines.drop (blockLength 0 lines)).drop
      (blockLength 0 (lines.drop (blockLength 0 lines))) := by
    rw [blockLength_succ, List.drop_drop]
  rw [hi, hd]
  refine (ih outer? e _).trans ?_
  exact (readBlock_succ_agrees catalog _ e 0 false index lines).symm.bind_left
    fun c => isAnchored_resume _ _ c

/-- after a statement, which may have opened a block that is skipped -/
theorem RunsAs.after_statement {line : Line} (hs : line.IsScanned) {lines : List Line}
    (hl : ∀ line ∈ lines, line.IsScanned) (e : Element) (index : Nat)
    (ih : ∀ n, RunsAs catalog (lines.drop n)) :
    (run catalog ⟨(scope outer? e).opening line, none⟩ index lines).Agrees
      ((readBlock catalog outer?.isNone e (depthAfterStatement line) false index lines).bind
        (resume catalog outer? (index + blockLength (depthAfterStatement line) lines)
          (lines.drop (blockLength (depthAfterStatement line) lines)))) := by
  rw [depthAfterStatement, BlockStack.opening, hs.opens_eq]
  by_cases ho : line.endsOpen = true
  · rw [if_pos ho, if_pos ho]
    exact (run_skips_agrees catalog (scope outer? e) 0 index hl).trans ((ih _).behind e index)
  · rw [if_neg ho, if_neg ho]
    exact ih 0 outer? e index

/-- after the opener of a child -/
theorem RunsAs.in_child {lines : List Line} (e child : Element) (index : Nat)
    (ih : ∀ n, RunsAs catalog (lines.drop n)) :
    (run catalog ⟨.child child (scope outer? e), none⟩ index lines).Agrees
      (((readBlock catalog false child 0 false index lines).bind fun c =>
          readBlock catalog outer?.isNone (e.addChild c) 1 false index lines).bind
        (resume catalog outer? (index + blockLength 1 lines) (lines.drop (blockLength 1 lines)))) := by
  rw [Traced.bind_assoc]
  refine (ih 0 (some (scope outer? e)) child index).trans (Traced.Agrees.bind_right _ fun c => ?_)
  show (run catalog ⟨(scope outer? e).addChild c, none⟩ _ _).Agrees _
  rw [addChild_scope]
  exact (ih _).behind (e.addChild c) index

/-- after the header of a child whose opener may stand on the next line -/
theorem RunsAs.detached {lines : List Line} (e child : Element) (index : Nat)
    (hl : ∀ line ∈ lines, line.IsScanned) (ih : ∀ n, RunsAs catalog (lines.drop n)) :
    (run catalog ⟨scope outer? e, some child⟩ index lines).Agrees
      (((readChild catalog child true index lines).bind fun c =>
          readBlock catalog outer?.isNone (e.addChild c) 0 true index lines).bind
        (resume catalog outer? (index + blockLength 0 lines) (lines.drop (blockLength 0 lines)))) := by
  cases lines with
  | nil =>
    have hchild : readChild catalog child true index [] = .pure child := rfl
    rw [hchild, Traced.pure_bind, readBlock_nil, Traced.pure_bind, List.drop_nil]
    rw [← run_scope_nil (e.addChild child) index, ← addChild_scope, run_nil, run_nil]
    exact Traced.Agrees.refl _
  | cons opener body =>
    by_cases ho : opener.isLoneOpen = true
    · have hstep : step catalog ⟨scope outer? e, some child⟩ opener =
          .go none ⟨.child child (scope outer? e), none⟩ := if_pos ho
      obtain ⟨hopens, hf⟩ := Line.opens_of_isLoneOpen ho
      have hchild : readChild catalog child true index (opener :: body) =
          readBlock catalog false child 0 false (index + 1) body := if_pos ho
      have hlen : blockLength 0 (opener :: body) = blockLength 1 body + 1 := by
        rw [blockLength_cons hf, if_pos hopens]
      have hi : index + (blockLength 1 body + 1) = index + 1 + blockLength 1 body := by omega
      rw [hchild, hlen, List.drop_succ_cons, hi]
      refine (run_cons_agrees catalog hstep index body).trans ?_
      refine (RunsAs.in_child e child (index + 1) fun n => ih (n + 1)).trans ?_
      rw [Traced.bind_assoc, Traced.bind_assoc]
      refine Traced.Agrees.bind_right _ fun c => Traced.Agrees.bind_left ?_ fun c =>
        isAnchored_resume _ _ c
      exact (readBlock_opener_agrees catalog _ ho _ index body).symm
    · have hchild : readChild catalog child true index (opener :: body) = .pure child := if_neg ho
      rw [hchild, Traced.pure_bind, readBlock_detached catalog _ (Bool.eq_false_iff.mpr ho)]
      have hrun : run catalog ⟨scope outer? e, some child⟩ index (opener :: body) =
          run catalog ⟨scope outer? (e.addChild child), none⟩ index (opener :: body) := by
        have hstep : step catalog ⟨scope outer? e, some child⟩ opener =
            step catalog ⟨scope outer? (e.addChild child), none⟩ opener := by
          rw [← addChild_scope]
          exact if_neg ho
        rw [run, run, hstep]
      rw [hrun]
      exact ih 0 outer? (e.addChild child) index

/-- the machine does in a block what `readBlock` does, and goes on behind it -/
theorem runsAs (catalog : Catalog) (lines : List Line) (hl : ∀ line ∈ lines, line.IsScanned) :
    RunsAs catalog lines := by
  intro outer? e index
  match lines with
  | [] =>
    rw [readBlock_nil, Traced.pure_bind, List.drop_nil, run_scope_nil]
    exact Traced.Agrees.refl _
  | line :: lines =>
    have hline := hl line List.mem_cons_self
    have hlines : ∀ l ∈ lines, l.IsScanned := fun l hm => hl l (List.mem_cons_of_mem _ hm)
    have ih : ∀ n, RunsAs catalog (lines.drop n) := fun n =>
      runsAs catalog (lines.drop n) fun l hm => hlines l (List.mem_of_mem_drop hm)
    by_cases h : line.first = blockClose
    · have hc : line.isLoneClose = true := by
        rw [← hline.closes_eq]; exact hline.first_eq_blockClose_iff.mp h
      rw [readBlock_close h, Traced.after_bind, Traced.pure_bind, blockLength_zero_close h, run]
      refine Traced.Agrees.after ?_ _
      cases outer? with
      | none =>
        have hstep : step catalog ⟨scope none e, none⟩ line = .closed e := if_pos hc
        rw [hstep]
        exact Traced.Agrees.refl _
      | some outer =>
        have hstep : step catalog ⟨scope (some outer) e, none⟩ line =
            .go none ⟨outer.addChild e, none⟩ := if_pos hc
        rw [hstep]
        exact Traced.Agrees.refl _
    · have hc : line.isLoneClose ≠ true := by
        rw [← hline.closes_eq]; exact fun e => h (hline.first_eq_blockClose_iff.mpr e)
      have hi : index + (blockLength (depthAfterStatement line) lines + 1) =
          index + 1 + blockLength (depthAfterStatement line) lines := by omega
      rw [run, step_scope hc, readBlock, if_neg h, if_neg (not_not_intro rfl),
        if_neg (fun hd => Bool.false_ne_true hd.1), Traced.after_bind]
      refine Traced.Agrees.after ?_ _
      rw [actIn, blockLength_statement h, List.drop_succ_cons, hi]
      cases hst : Statement.ofLine outer?.isNone line with
      | property name value => exact RunsAs.after_statement hline hlines _ (index + 1) ih
      | declareVariable name value => exact RunsAs.after_statement hline hlines _ (index + 1) ih
      | rejected problem =>
        simp only [Traced.after_bind]
        exact (RunsAs.after_statement hline hlines _ (index + 1) ih).after _
      | unclosed bracket => exact Traced.Agrees.refl _
      | child typeName name? detached =>
        have ho : line.opens = !detached := Statement.opens_of_child hline hst
        rw [depthAfterStatement, ho]
        cases detached with
        | false => exact RunsAs.in_child e _ (index + 1) ih
        | true => exact RunsAs.detached e _ (index + 1) hlines ih
termination_by lines.length
decreasing_by
  rw [List.length_drop, List.length_cons]
  omega

end Machine

/-! ## the element of a header -/

theorem Header.build_agrees_machine (catalog : Catalog) {lines : List Line}
    (hl : ∀ line ∈ lines, line.IsScanned) (h : Header) :
    (h.build catalog lines).Agrees (Machine.build catalog lines h) := by
  have hnote : (h.build catalog lines).Agrees ((readBlock catalog true
      (.bare h.name .userDefined) 0 false (h.start + 1) (lines.drop (h.start + 1))).bind fun root =>
        .pure ⟨root, h.file⟩) := ⟨rfl, fun _ => rfl⟩
  have hrun := Machine.runsAs catalog (lines.drop (h.start + 1))
    (fun line hm => hl line (List.mem_of_mem_drop hm)) none (.bare h.name .userDefined) (h.start + 1)
  refine hnote.trans (Traced.Agrees.bind_left ?_ fun root => Traced.isAnchored_pure _)
  rw [← Traced.bind_pure (readBlock _ _ _ _ _ _ _)]
  exact hrun.symm

/-- a header's element is read as the machine reads it, which looks at each line behind the header
once: the same tree or the same unclosed bracket, and the same problems at the same lines -/
theorem Header.build_eq_machine (catalog : Catalog) (source : String) (h : Header) :
    let lines := Line.ofSource source
    let built := h.build catalog lines
    let run := Machine.build catalog lines h
    built.result = run.result ∧
      (∀ index, reportsFrom index built.events = reportsFrom index run.events) ∧
      ∃ n ≤ lines.length - (h.start + 1),
        linesSeen run.events = List.range' (h.start + 1) n := by
  intro lines built run
  have hl : ∀ line ∈ lines, line.IsScanned := fun _ hm => Line.isScanned_of_mem hm
  obtain ⟨hr, he⟩ := Header.build_agrees_machine catalog hl h
  refine ⟨hr, he, ?_⟩
  obtain ⟨n, hn, hs⟩ :=
    Machine.linesSeen_run catalog (Machine.start h) (h.start + 1) (lines.drop (h.start + 1))
  rw [List.length_drop] at hn
  refine ⟨n, hn, ?_⟩
  rw [← hs]
  exact congrArg linesSeen (Traced.events_bind_pure _ _)

end Markup
