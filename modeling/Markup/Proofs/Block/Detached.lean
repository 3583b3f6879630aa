import Markup.Outline
import Markup.Proofs.Block.Extent

/-!
# Children with detached openers

The block of a child opens at the end of its header or on a line of its own behind it.  `Detaches`
relates lines in which some headers have their openers to lines in which these openers are detached.
In a block both are read alike (`Detaches.readsAlike`): the child is read from the line behind its
opener in both, and the block around it passes over what it has read.

* `problemsOf`       the problems of a list of events, whatever lines they lie on;
* `Traced.Matches`    readings with the same result and the same problems.
-/

namespace Markup

/-! ## readings with the same problems -/

def problemsOf (events : List Event) : List Problem :=
  events.filterMap fun x => match x with
    | .problem p => some p
    | .source _ _ | .line _ | .note _ => none

theorem problemsOf_append (xs ys : List Event) :
    problemsOf (xs ++ ys) = problemsOf xs ++ problemsOf ys := List.filterMap_append

theorem map_reportsFrom (i : Nat) (events : List Event) :
    (reportsFrom i events).map Prod.snd = problemsOf events := by
  induction events generalizing i with
  | nil => rfl
  | cons x xs ih =>
    cases x with
    | problem p => exact congrArg (p :: ·) (ih i)
    | source _ _ | line _ | note _ => exact ih _

namespace Traced

variable {α β : Type}

/-- the same result and the same problems, whatever lines they lie on -/
structure Matches (r s : Traced α) : Prop where
  result : s.result = r.result
  problems : problemsOf s.events = problemsOf r.events

theorem matches_refl (r : Traced α) : r.Matches r := ⟨rfl, rfl⟩

theorem Matches.after {r s : Traced α} (h : r.Matches s) {xs ys : List Event}
    (he : problemsOf ys = problemsOf xs) : (r.after xs).Matches (s.after ys) := by
  refine ⟨h.result, ?_⟩
  show problemsOf (ys ++ s.events) = problemsOf (xs ++ r.events)
  rw [problemsOf_append, problemsOf_append, he, h.problems]

theorem Matches.line {r s : Traced α} (h : r.Matches s) (i j : Nat) :
    (r.after [.line i]).Matches (s.after [.line j]) := h.after rfl

theorem Matches.skip {r s : Traced α} (h : r.Matches s) (j : Nat) :
    r.Matches (s.after [.line j]) := ⟨h.result, h.problems⟩

theorem Matches.bind {r s : Traced α} (h : r.Matches s) {f g : α → Traced β}
    (hf : ∀ a, (f a).Matches (g a)) : (r.bind f).Matches (s.bind g) := by
  have hresult := h.result
  cases hr : r.result with
  | ok a =>
    rw [hr] at hresult
    have hrb : r.bind f = (f a).after r.events := by rw [Traced.bind, hr]
    have hsb : s.bind g = (g a).after s.events := by rw [Traced.bind, hresult]
    rw [hrb, hsb]
    exact (hf a).after h.problems
  | error b =>
    rw [hr] at hresult
    have hrb : r.bind f = ⟨r.events, .error b⟩ := by rw [Traced.bind, hr]
    have hsb : s.bind g = ⟨s.events, .error b⟩ := by rw [Traced.bind, hresult]
    rw [hrb, hsb]
    exact ⟨rfl, h.problems⟩

end Traced

/-! ## detached openers -/

/-- the tokens of the header of a child, without an opener -/
structure IsChildHeader (ts : List String) : Prop where
  form : (∃ typeName, ts = ["child", typeName]) ∨ ∃ typeName name, ts = ["child", typeName, name]
  plain : ∀ t ∈ ts, t ≠ "" ∧ t ≠ blockOpen ∧ t ≠ blockClose

/-- the same lines, but some children in a block have detached openers in the second ones.  Before the
lines `depth` blocks are open -/
inductive Detaches : Nat → List Line → List Line → Prop
  | nil (depth : Nat) : Detaches depth [] []
  | cons {depth : Nat} (line : Line) {ls ls' : List Line}
      (h : Detaches (depthAfter depth line) ls ls') : Detaches depth (line :: ls) (line :: ls')
  | child {depth : Nat} (hd : depth ≠ 0) {ts : List String} (hc : IsChildHeader ts) (n m : Nat)
      {ls ls' : List Line} (h : Detaches (depth + 1) ls ls') :
      Detaches depth (⟨ts ++ [blockOpen], n⟩ :: ls) (⟨ts, n⟩ :: ⟨[blockOpen], m⟩ :: ls')

theorem detaches_refl (depth : Nat) (ls : List Line) : Detaches depth ls ls := by
  induction ls generalizing depth with
  | nil => exact .nil depth
  | cons line ls ih => exact .cons line (ih _)

theorem Detaches.append {ls ls' : List Line} (before : List Line) {depth : Nat}
    (h : Detaches (before.foldl depthAfter depth) ls ls') :
    Detaches depth (before ++ ls) (before ++ ls') := by
  induction before generalizing depth with
  | nil => exact h
  | cons line before ih => exact .cons line (ih h)

namespace IsChildHeader

variable {ts : List String} (h : IsChildHeader ts) (n : Nat)
include h

theorem first (rest : List String) : Line.first ⟨ts ++ rest, n⟩ = "child" := by
  rcases h.form with ⟨typeName, rfl⟩ | ⟨typeName, name, rfl⟩ <;> rfl

theorem opens : Line.opens ⟨ts, n⟩ = false := by
  rw [Line.opens, Line.contains, List.contains_eq_mem, decide_eq_false_iff_not]
  exact fun hm => (h.plain _ hm).2.1 rfl

theorem closes : Line.closes ⟨ts, n⟩ = false := by
  rw [Line.closes, Line.contains, List.contains_eq_mem, decide_eq_false_iff_not]
  exact fun hm => (h.plain _ hm).2.2 rfl

theorem exists_child : ∃ typeName name?, ∀ isRoot,
    Statement.ofLine isRoot ⟨ts ++ [blockOpen], n⟩ = .child typeName name? false ∧
      Statement.ofLine isRoot ⟨ts, n⟩ = .child typeName name? true := by
  have hline : ∀ isRoot rest, Statement.ofLine isRoot ⟨ts ++ rest, n⟩ =
      Statement.childOfLine ⟨ts ++ rest, n⟩ := by
    intro isRoot rest
    rw [Statement.ofLine, h.first n rest, if_neg (by decide), if_neg (by decide), if_pos rfl]
  have hline' := fun isRoot => hline isRoot []
  rw [List.append_nil] at hline'
  have hplain : ∀ t ∈ ts, ¬(t = "" ∨ t = blockOpen) := fun t ht =>
    not_or.mpr ⟨(h.plain t ht).1, (h.plain t ht).2.1⟩
  rcases h.form with ⟨typeName, rfl⟩ | ⟨typeName, name, rfl⟩
  · have ht := hplain typeName (by simp)
    refine ⟨typeName, none, fun isRoot => ⟨?_, ?_⟩⟩
    · rw [hline]
      show (if typeName = "" ∨ typeName = blockOpen then _ else _) = _
      rw [if_neg ht]
      rfl
    · rw [hline']
      show (if typeName = "" ∨ typeName = blockOpen then _ else _) = _
      rw [if_neg ht]
      rfl
  · have ht := hplain typeName (by simp)
    have hn := hplain name (by simp)
    refine ⟨typeName, some name, fun isRoot => ⟨?_, ?_⟩⟩
    · rw [hline]
      show (if typeName = "" ∨ typeName = blockOpen then _
        else if name = "" ∨ name = blockOpen then _ else _) = _
      rw [if_neg ht, if_neg hn]
      rfl
    · rw [hline']
      show (if typeName = "" ∨ typeName = blockOpen then _
        else if name = "" ∨ name = blockOpen then _ else _) = _
      rw [if_neg ht, if_neg hn]
      rfl

end IsChildHeader

theorem opens_concat (ts : List String) (n : Nat) : Line.opens ⟨ts ++ [blockOpen], n⟩ = true := by
  rw [Line.opens, Line.contains, List.contains_iff_mem]
  exact List.mem_append_right _ (List.mem_singleton.mpr rfl)

/-! ## reading them -/

/-- in any block both lists of lines are read alike, from whatever places -/
structure ReadsAlike (catalog : Catalog) (ls ls' : List Line) : Prop where
  block : ∀ (isRoot : Bool) (e : Element) (depth : Nat) (detached : Bool) (i j : Nat),
    (readBlock catalog isRoot e depth detached i ls).Matches
      (readBlock catalog isRoot e depth detached j ls')
  child : ∀ (c : Element) (detached : Bool) (i j : Nat),
    (readChild catalog c detached i ls).Matches (readChild catalog c detached j ls')

namespace ReadsAlike

variable {catalog : Catalog} {ls ls' : List Line}

theorem nil (catalog : Catalog) : ReadsAlike catalog [] [] := by
  have hblock : ∀ isRoot e depth detached i j, (readBlock catalog isRoot e depth detached i []).Matches
      (readBlock catalog isRoot e depth detached j []) := by
    intro isRoot e depth detached i j
    rw [readBlock_nil, readBlock_nil]
    exact Traced.matches_refl _
  refine ⟨hblock, fun c detached i j => ?_⟩
  cases detached with
  | false => exact hblock false c 0 false i j
  | true => exact Traced.matches_refl _

theorem block_cons (h : ReadsAlike catalog ls ls') (line : Line) (isRoot : Bool) (e : Element)
    (depth : Nat) (detached : Bool) (i j : Nat) :
    (readBlock catalog isRoot e depth detached i (line :: ls)).Matches
      (readBlock catalog isRoot e depth detached j (line :: ls')) := by
  cases depth with
  | zero =>
    rw [readBlock, readBlock]
    refine Traced.Matches.line ?_ i j
    by_cases hc : line.first = blockClose
    · rw [if_pos hc, if_pos hc]
      exact Traced.matches_refl _
    · rw [if_neg hc, if_neg hc, if_neg (not_not_intro rfl), if_neg (not_not_intro rfl)]
      by_cases hd : detached = true ∧ line.isLoneOpen = true
      · rw [if_pos hd, if_pos hd]
        exact h.block isRoot e 1 false _ _
      · rw [if_neg hd, if_neg hd]
        cases Statement.ofLine isRoot line with
        | property name value => exact h.block isRoot _ _ false _ _
        | declareVariable name value => exact h.block isRoot _ _ false _ _
        | rejected problem => exact (h.block isRoot e _ false _ _).after rfl
        | unclosed bracket => exact Traced.matches_refl _
        | child typeName name? detached =>
          show ((readChild catalog _ detached (i + 1) ls).bind _).Matches
            ((readChild catalog _ detached (j + 1) ls').bind _)
          exact (h.child _ detached _ _).bind fun c => h.block isRoot _ _ detached _ _
  | succ depth =>
    rw [readBlock, readBlock]
    refine Traced.Matches.line ?_ i j
    by_cases hc : line.first = blockClose
    · rw [if_pos hc, if_pos hc]
      exact h.block isRoot e depth detached _ _
    · rw [if_neg hc, if_neg hc, if_pos (Nat.succ_ne_zero depth), if_pos (Nat.succ_ne_zero depth)]
      exact h.block isRoot e _ detached _ _

theorem cons (h : ReadsAlike catalog ls ls') (line : Line) :
    ReadsAlike catalog (line :: ls) (line :: ls') := by
  refine ⟨h.block_cons line, fun c detached i j => ?_⟩
  cases detached with
  | false => exact h.block_cons line false c 0 false i j
  | true =>
    unfold readChild
    simp only [if_true]
    by_cases ho : line.isLoneOpen = true
    · rw [if_pos ho, if_pos ho]
      exact h.block false c 0 false _ _
    · rw [if_neg ho, if_neg ho]
      exact Traced.matches_refl _

/-- a block open in the block, or the child of the header, takes the opener from either line -/
theorem block_child (h : ReadsAlike catalog ls ls') {ts : List String} (hc : IsChildHeader ts)
    (n m : Nat) (isRoot : Bool) (e : Element) (depth : Nat) (detached : Bool) (i j : Nat) :
    (readBlock catalog isRoot e depth detached i (⟨ts ++ [blockOpen], n⟩ :: ls)).Matches
      (readBlock catalog isRoot e depth detached j (⟨ts, n⟩ :: ⟨[blockOpen], m⟩ :: ls')) := by
  have hfirst := hc.first n [blockOpen]
  have hfirst' := hc.first n []
  rw [List.append_nil] at hfirst'
  have hne : Line.first ⟨ts ++ [blockOpen], n⟩ ≠ blockClose := by rw [hfirst]; decide
  have hne' : Line.first ⟨ts, n⟩ ≠ blockClose := by rw [hfirst']; decide
  have hopener : Line.first ⟨[blockOpen], m⟩ ≠ blockClose := by
    show blockOpen ≠ blockClose
    decide
  have hopens : Line.opens ⟨[blockOpen], m⟩ = true := opens_concat [] m
  cases depth with
  | succ depth =>
    have hd := Nat.succ_ne_zero depth
    rw [readBlock, if_neg hne, if_pos hd, if_pos (opens_concat ts n), readBlock, if_neg hne',
      if_pos hd, hc.opens n, if_neg Bool.false_ne_true, readBlock, if_neg hopener, if_pos hd,
      if_pos hopens]
    exact ((h.block isRoot e _ detached _ _).skip _).line i j
  | zero =>
    obtain ⟨typeName, name?, hchild⟩ := hc.exists_child n
    have hd : ¬(0 ≠ 0) := not_not_intro rfl
    have hlone : ¬(detached = true ∧ Line.isLoneOpen ⟨ts ++ [blockOpen], n⟩ = true) := by
      rcases hc.form with ⟨_, rfl⟩ | ⟨_, _, rfl⟩ <;> simp [Line.isLoneOpen]
    have hlone' : ¬(detached = true ∧ Line.isLoneOpen ⟨ts, n⟩ = true) := by
      rcases hc.form with ⟨_, rfl⟩ | ⟨_, _, rfl⟩ <;> simp [Line.isLoneOpen]
    rw [readBlock, if_neg hne, if_neg hd, if_neg hlone, (hchild isRoot).1, readBlock, if_neg hne',
      if_neg hd, if_neg hlone', (hchild isRoot).2]
    have hafter : depthAfterStatement ⟨ts ++ [blockOpen], n⟩ = 1 := if_pos (opens_concat ts n)
    have hafter' : depthAfterStatement ⟨ts, n⟩ = 0 := by
      rw [depthAfterStatement, hc.opens n]
      rfl
    refine Traced.Matches.line ?_ i j
    have hbody := h.block false (.ofHeader catalog typeName name?) 0 false (i + 1) (j + 2)
    show ((readBlock catalog false (.ofHeader catalog typeName name?) 0 false (i + 1) ls).bind _).Matches
      ((readBlock catalog false (.ofHeader catalog typeName name?) 0 false (j + 2) ls').bind _)
    refine hbody.bind fun c => ?_
    -- behind the child, the lone opener is passed over as the opener of a block
    rw [hafter, hafter', readBlock, if_neg hopener, if_neg hd, if_pos ⟨rfl, rfl⟩]
    exact (h.block isRoot (e.addChild c) 1 false _ _).skip _

theorem detach (h : ReadsAlike catalog ls ls') {ts : List String} (hc : IsChildHeader ts)
    (n m : Nat) : ReadsAlike catalog (⟨ts ++ [blockOpen], n⟩ :: ls)
      (⟨ts, n⟩ :: ⟨[blockOpen], m⟩ :: ls') := by
  refine ⟨h.block_child hc n m, fun c detached i j => ?_⟩
  cases detached with
  | false => exact h.block_child hc n m false c 0 false i j
  | true =>
    have hlone : Line.isLoneOpen ⟨ts ++ [blockOpen], n⟩ = false ∧ Line.isLoneOpen ⟨ts, n⟩ = false := by
      rcases hc.form with ⟨_, rfl⟩ | ⟨_, _, rfl⟩ <;> exact ⟨rfl, rfl⟩
    unfold readChild
    simp only [if_true, hlone.1, hlone.2, if_neg Bool.false_ne_true]
    exact Traced.matches_refl _

end ReadsAlike

/-- openers may be detached in a block -/
theorem Detaches.readsAlike {depth : Nat} {ls ls' : List Line} (h : Detaches depth ls ls')
    (catalog : Catalog) : ReadsAlike catalog ls ls' := by
  induction h with
  | nil => exact .nil catalog
  | cons line _ ih => exact ih.cons line
  | child _ hc n m _ ih => exact ih.detach hc n m

end Markup
