import Markup.Proofs.Block.Detached
import Markup.Proofs.Outline.Echo

/-!
# Outlines and detached openers

An outline counts the openers in a block and reads nothing else there.  So it finds the same
declarations and problems whether the openers of children stand on their headers or not
(`Outline.matches_ofLinesFrom`), and behind its headers it leaves lines that are read alike.
-/

namespace Markup

variable {lines lines' : List Line}

/-- headers of one declaration, in front of lines of which some have detached openers -/
structure Header.Precedes (lines lines' : List Line) (h h' : Header) : Prop where
  name : h'.name = h.name
  file : h'.file = h.file
  rest : ∃ depth, Detaches depth (lines.drop (h.start + 1)) (lines'.drop (h'.start + 1))

theorem Header.Precedes.build_matches {h h' : Header} (hh : h.Precedes lines lines' h')
    (catalog : Catalog) : (h.build catalog lines).Matches (h'.build catalog lines') := by
  obtain ⟨depth, hrest⟩ := hh.rest
  rw [Header.build, Header.build, hh.name, hh.file]
  refine Traced.Matches.after ?_ rfl
  exact ((hrest.readsAlike catalog).block true _ 0 false _ _).bind fun root =>
    Traced.matches_refl _

namespace Outline

/-- outlines of such lines, with the same constants and problems -/
structure Matches (lines lines' : List Line) (o o' : Outline) : Prop where
  headers : List.Forall₂ (Header.Precedes lines lines') o.headers o'.headers
  constants : o'.constants = o.constants
  problems : problemsOf o'.events = problemsOf o.events

variable {o o' : Outline}

theorem problemsOf_add (i : Nat) (e : Entry) (o : Outline) :
    problemsOf (o.add i e).events = problemsOf e.events ++ problemsOf o.events :=
  problemsOf_append e.events o.events

theorem matches_atEnd (depth i j : Nat) : (atEnd depth i).Matches lines lines' (atEnd depth j) := by
  unfold atEnd
  by_cases hd : depth = 0
  · rw [if_pos hd, if_pos hd]
    exact ⟨.nil, rfl, rfl⟩
  · rw [if_neg hd, if_neg hd]
    exact ⟨.nil, rfl, rfl⟩

theorem Matches.add_passed (h : o.Matches lines lines' o') (i : Nat) :
    (o.add i .passed).Matches lines lines' o' :=
  ⟨h.headers, h.constants, h.problems.trans (problemsOf_add i .passed o).symm⟩

theorem Matches.passed_add (h : o.Matches lines lines' o') (j : Nat) :
    o.Matches lines lines' (o'.add j .passed) :=
  ⟨h.headers, h.constants, (problemsOf_add j .passed o').trans h.problems⟩

theorem Matches.add (h : o.Matches lines lines' o') (catalog : Catalog) (file : String)
    (depth i j : Nat) (line : Line)
    (hrest : ∃ d, Detaches d (lines.drop (i + 1)) (lines'.drop (j + 1))) :
    (o.add i (Entry.ofLine catalog file depth i line)).Matches lines lines'
      (o'.add j (Entry.ofLine catalog file depth j line)) := by
  have hplace : ∀ k, Entry.ofLine catalog file depth k line =
      (Entry.ofLine catalog file depth 0 line).lowered k line.number := by
    intro k
    rw [← Entry.ofLine_of_tokens rfl, Nat.zero_add]
  have hproblems : ∀ k n e, problemsOf (Outline.add k (Entry.lowered k n e) o').events =
      problemsOf (Entry.lowered k n e).events ++ problemsOf o.events := by
    intro k n e
    rw [problemsOf_add, h.problems]
  rw [hplace i, hplace j]
  cases he : Entry.ofLine catalog file depth 0 line with
  | element header =>
    have hstart := (Entry.element_of_ofLine he).2.1
    refine ⟨.cons ⟨rfl, rfl, ?_⟩ h.headers, h.constants, hproblems j _ _⟩
    show ∃ d, Detaches d (lines.drop (header.start + i + 1)) (lines'.drop (header.start + j + 1))
    rwa [hstart, Nat.zero_add, Nat.zero_add]
  | constant c =>
    exact ⟨h.headers, congrArg (c :: ·) h.constants, hproblems j line.number (.constant c)⟩
  | passed => exact ⟨h.headers, h.constants, hproblems j line.number .passed⟩
  | rejected p =>
    refine ⟨h.headers, h.constants, (hproblems j line.number (.rejected p)).trans ?_⟩
    exact (problemsOf_add i _ o).symm

/-- the openers of children are counted in a block wherever they stand -/
theorem matches_ofLinesFrom (catalog : Catalog) (file : String) {depth : Nat} {ls ls' : List Line}
    (h : Detaches depth ls ls') {i j : Nat} (hi : lines.drop i = ls) (hj : lines'.drop j = ls') :
    (ofLinesFrom catalog file depth i ls).Matches lines lines'
      (ofLinesFrom catalog file depth j ls') := by
  induction h generalizing i j with
  | nil depth => exact matches_atEnd depth i j
  | @cons depth line ls ls' h ih =>
    have hi' := drop_succ_of_cons hi
    have hj' := drop_succ_of_cons hj
    rw [ofLinesFrom_cons, ofLinesFrom_cons]
    refine (ih hi' hj').add catalog file depth i j line ⟨depthAfter depth line, ?_⟩
    rw [hi', hj']
    exact h
  | @child depth hd ts hc n m ls ls' h ih =>
    have hin : ∀ line k, Entry.ofLine catalog file depth k line = .passed := fun line k => if_pos hd
    have hk : ∀ line : Line, ¬(depth = 0 ∧ line.first = "const") := fun line hk => hd hk.1
    have hattached : depthAfter depth ⟨ts ++ [blockOpen], n⟩ = depth + 1 := by
      rw [depthAfter, if_neg (hk _), if_pos (opens_concat ts n)]
    have hheader : depthAfter depth ⟨ts, n⟩ = depth := by
      rw [depthAfter, if_neg (hk _), hc.opens n, hc.closes n]
      rfl
    have hopener : depthAfter depth ⟨[blockOpen], m⟩ = depth + 1 := by
      rw [depthAfter, if_neg (hk _)]
      exact if_pos (opens_concat [] m)
    rw [ofLinesFrom_cons, ofLinesFrom_cons, ofLinesFrom_cons, hattached, hheader, hopener, hin, hin,
      hin]
    have hnext := ih (drop_succ_of_cons hi) (drop_succ_of_cons (drop_succ_of_cons hj))
    exact ((hnext.add_passed i).passed_add (j + 1)).passed_add j

end Outline
end Markup
