import Markup.Proofs.Bracket.Splitting

/-!
# Arguments read one after the other

Behind a round bracket the arguments can be read at once, with one count of the depth, or one after
the other, each up to a comma or closer that no inner bracket encloses.  Both ways give the same
arguments and end at the same place, or neither ends because there is no closer; but the second way
gives an argument without tokens where the bracket encloses nothing or a comma comes first
(`takeEach_matches_takeArguments`).

* `Cursor.hasClosed`     a read that has dropped a closer;
* `Cursor.takeEach`      such reads up to the closer of the enclosing bracket.
-/

namespace Markup

/-! ## one read -/

theorem length_upToStop_le (stop : String) (outer : Bool) (depth : Nat) (ts : List String) :
    (upToStop stop outer depth ts).2.length ≤ ts.length - 1 := by
  induction ts generalizing depth with
  | nil => exact Nat.le_refl 0
  | cons t ts ih =>
    rw [upToStop]
    cases Bracket.round.depthAfter depth t with
    | none => exact Nat.le_refl _
    | some d =>
      simp only
      split
      · exact Nat.le_refl _
      · exact Nat.le_trans (ih d) (Nat.sub_le _ _)

/-- a comma or closer at the depth of the bracket, which no argument has -/
def EndsArgument (t : String) : Prop := t = "," ∨ t = ")"

theorem upToStop_end {u : String} (hu : EndsArgument u) (ts : List String) :
    upToStop "," true 0 (u :: ts) = ([], ts) := by
  rcases hu with rfl | rfl <;> rfl

theorem upToStop_token {depth d : Nat} {t : String} (hcomma : ¬(t = "," ∧ depth = 0))
    (hd : Bracket.round.depthAfter depth t = some d) (ts : List String) :
    upToStop "," true depth (t :: ts) =
      (t :: (upToStop "," true d ts).1, (upToStop "," true d ts).2) := by
  have hstop : ¬(t = "," ∧ (True → d = 0)) := by
    rintro ⟨rfl, h0⟩
    obtain rfl : depth = d := Option.some.inj ((depthAfter_comma depth).symm.trans hd)
    exact hcomma ⟨rfl, h0 trivial⟩
  rw [upToStop, hd]
  simp only
  rw [if_neg hstop]

theorem upToStop_argument {depth : Nat} {arg : List String} (harg : IsArgumentFrom depth arg)
    {u : String} (hu : EndsArgument u) (ts : List String) :
    upToStop "," true depth (arg ++ u :: ts) = (arg, ts) := by
  induction arg generalizing depth with
  | nil =>
    obtain rfl : depth = 0 := harg
    exact upToStop_end hu ts
  | cons t arg ih =>
    obtain ⟨hcomma, d, hd, harg⟩ := harg
    rw [List.cons_append, upToStop_token hcomma hd, ih harg]

theorem exists_argument_or_upToStop (depth : Nat) (ts : List String) :
    (∃ arg u us, IsArgumentFrom depth arg ∧ EndsArgument u ∧ ts = arg ++ u :: us) ∨
      upToStop "," true depth ts = (ts, []) := by
  induction ts generalizing depth with
  | nil => exact .inr rfl
  | cons t ts ih =>
    cases hd : Bracket.round.depthAfter depth t with
    | none =>
      obtain ⟨rfl, hc⟩ := Bracket.depthAfter_eq_none.mp hd
      exact .inl ⟨[], t, ts, rfl, .inr (beq_iff_eq.mp hc), rfl⟩
    | some d =>
      by_cases hcomma : t = "," ∧ depth = 0
      · obtain ⟨rfl, rfl⟩ := hcomma
        exact .inl ⟨[], ",", ts, rfl, .inl rfl, rfl⟩
      · rcases ih d with ⟨arg, u, us, harg, hu, rfl⟩ | hall
        · exact .inl ⟨t :: arg, u, us, ⟨hcomma, d, hd, harg⟩, hu, rfl⟩
        · exact .inr (by rw [upToStop_token hcomma hd, hall])

/-! ## one read after the other -/

namespace Cursor

theorem length_takeLine_lt {c : Cursor} (h : ¬c.atEnd = true) (stop : String) (outer : Bool) :
    (c.takeLine stop outer).2.ahead.length < c.ahead.length := by
  have hle := length_upToStop_le stop outer 0 c.ahead
  have hpos := length_ahead_pos h
  show (c.ahead.drop (c.ahead.length - (upToStop stop outer 0 c.ahead).2.length)).length < _
  rw [List.length_drop]
  omega

/-- the read of `arg` from here to `d` has dropped a closer behind `arg` -/
def hasClosed (c : Cursor) (arg : Line) (d : Cursor) : Bool :=
  d.previous == ")" && d.position == c.position + arg.tokens.length + 1

/-- Reads arguments one after the other, each up to a comma outside the brackets in it, until a read
drops the closer of the enclosing bracket.  Without a closer there is no end. -/
def takeEach (c : Cursor) : Option (List Line × Cursor) :=
  let read := c.takeLine "," true
  if c.atEnd then none
  else if c.hasClosed read.1 read.2 then some ([read.1], read.2)
  else read.2.takeEach.map fun (args, d) => (read.1 :: args, d)
termination_by c.ahead.length
decreasing_by exact length_takeLine_lt ‹_› "," true

section
variable {arg : List String} {args : List (List String)}

theorem takeLine_argument (harg : IsArgument arg) {u : String} (hu : EndsArgument u)
    (passed ts : List String) (n : Nat) :
    (Cursor.mk passed (arg ++ u :: ts) n).takeLine "," true =
      (⟨arg, n⟩, ⟨u :: (arg.reverse ++ passed), ts, n⟩) := by
  rw [takeLine, upToStop_argument harg hu]
  simp only
  rw [skipTo_append_cons]

theorem hasClosed_argument (passed ts : List String) (u : String) (us : List String) (n : Nat) :
    (Cursor.mk passed ts n).hasClosed ⟨arg, n⟩ ⟨u :: (arg.reverse ++ passed), us, n⟩ =
      (u == ")") := by
  have hposition : (Cursor.mk (u :: (arg.reverse ++ passed)) us n).position =
      (Cursor.mk passed ts n).position + arg.length + 1 := by
    simp only [position, List.length_cons, List.length_append, List.length_reverse]
    omega
  rw [hasClosed, hposition, beq_self_eq_true, Bool.and_true]
  rfl

theorem not_atEnd_argument (passed : List String) (u : String) (ts : List String) (n : Nat) :
    ¬(Cursor.mk passed (arg ++ u :: ts) n).atEnd = true := by
  simp [atEnd]

theorem takeEach_close (harg : IsArgument arg) (passed ts : List String) (n : Nat) :
    (Cursor.mk passed (arg ++ ")" :: ts) n).takeEach =
      some ([⟨arg, n⟩], ⟨")" :: (arg.reverse ++ passed), ts, n⟩) := by
  rw [takeEach, if_neg (not_atEnd_argument passed ")" ts n), takeLine_argument harg (.inr rfl),
    hasClosed_argument, if_pos (beq_self_eq_true _)]

theorem takeEach_comma (harg : IsArgument arg) (passed ts : List String) (n : Nat) :
    (Cursor.mk passed (arg ++ "," :: ts) n).takeEach =
      (Cursor.mk ("," :: (arg.reverse ++ passed)) ts n).takeEach.map
        fun (args, d) => (⟨arg, n⟩ :: args, d) := by
  rw [takeEach, if_neg (not_atEnd_argument passed "," ts n), takeLine_argument harg (.inl rfl),
    hasClosed_argument, if_neg (by decide)]

theorem takeEach_commas (hargs : ∀ a ∈ arg :: args, IsArgument a) (passed rest : List String)
    (n : Nat) :
    (Cursor.mk passed (commas (arg :: args) ++ ")" :: rest) n).takeEach =
      some ((arg :: args).map (⟨·, n⟩),
        ⟨")" :: ((commas (arg :: args)).reverse ++ passed), rest, n⟩) := by
  induction args generalizing arg passed with
  | nil =>
    rw [commas_singleton]
    exact takeEach_close (hargs arg List.mem_cons_self) passed rest n
  | cons next args ih =>
    obtain ⟨harg, hargs⟩ := List.forall_mem_cons.mp hargs
    rw [commas_cons_cons, List.append_assoc, List.cons_append, takeEach_comma harg, ih hargs]
    simp

theorem takeEach_all {ts : List String} (h : upToStop "," true 0 ts = (ts, []))
    (passed : List String) (n : Nat) : (Cursor.mk passed ts n).takeEach = none := by
  have hskip := skipTo_append passed ts [] n
  rw [List.append_nil] at hskip
  have hread : (Cursor.mk passed ts n).takeLine "," true =
      (⟨ts, n⟩, ⟨ts.reverse ++ passed, [], n⟩) := by
    rw [takeLine, h]
    exact congrArg _ hskip
  have hposition : (Cursor.mk (ts.reverse ++ passed) [] n).position ≠
      (Cursor.mk passed ts n).position + ts.length + 1 := by
    simp only [position, List.length_append, List.length_reverse]
    omega
  have hclosed : (Cursor.mk passed ts n).hasClosed ⟨ts, n⟩ ⟨ts.reverse ++ passed, [], n⟩ = false := by
    rw [hasClosed, beq_eq_false_iff_ne.mpr hposition, Bool.and_false]
  have hend : (Cursor.mk (ts.reverse ++ passed) [] n).takeEach = none := by
    rw [takeEach]
    exact if_pos (atEnd_nil _ n)
  rw [takeEach, hread, hclosed, hend]
  exact ite_self _

theorem takeEach_eq_none {ts : List String} (h : Bracket.round.enclosed 0 ts = none)
    (passed : List String) (n : Nat) : (Cursor.mk passed ts n).takeEach = none := by
  rcases exists_argument_or_upToStop 0 ts with ⟨arg, u, us, harg, hu, hts⟩ | hall
  · have hlength : us.length < ts.length := by
      rw [hts, List.length_append, List.length_cons]
      omega
    rcases hu with rfl | rfl
    · -- the tokens behind the comma have no closer either
      rw [hts, Bracket.enclosed_eq_none_iff, Bracket.depthOver_append_of_some harg.depthOver,
        Bracket.depthOver_cons_of_some (depthAfter_comma 0), ← Bracket.enclosed_eq_none_iff] at h
      rw [hts, takeEach_comma harg, takeEach_eq_none h, Option.map_none]
    · rw [Bracket.enclosed_eq_some_iff.mpr ⟨")", rfl, harg.depthOver, hts⟩] at h
      exact absurd h (by simp)
  · exact takeEach_all hall passed n
termination_by ts.length

end
end Cursor

/-! ## both ways -/

namespace IsArgumentList

variable {args : List (List String)} {inner : List String}

/-- the enclosed tokens are arguments with commas between them if the one in front of a first comma
counts too -/
theorem exists_commas (h : IsArgumentList args inner) :
    ∃ arg more, (∀ a ∈ arg :: more, IsArgument a) ∧ inner = commas (arg :: more) ∧
      arg :: more = if inner = [] ∨ inner.head? = some "," then [] :: args else args := by
  have hnil : IsArgument [] := rfl
  cases h with
  | none => exact ⟨[], [], List.forall_mem_singleton.mpr hnil, rfl, rfl⟩
  | @plain t arg args h =>
    have ht : t ≠ "," := head_ne_comma (h _ List.mem_cons_self)
    refine ⟨t :: arg, args, h, rfl, ?_⟩
    rw [commas_cons_token, List.head?_cons, if_neg]
    rintro (he | he)
    · exact absurd he (List.cons_ne_nil _ _)
    · exact ht (Option.some.inj he)
  | @behindComma arg args h =>
    refine ⟨[], arg :: args, List.forall_mem_cons.mpr ⟨hnil, h⟩, ?_, (if_pos (.inr rfl)).symm⟩
    rw [commas_cons_cons, List.nil_append]

end IsArgumentList

/-- From any place, the arguments that are read one after the other are those that are read at once,
behind one without tokens if the bracket encloses nothing or a comma comes first, and the cursor is
then at the same place.  Where the arguments cannot be read at once, the bracket having no closer,
reading them one after the other has no end. -/
theorem takeEach_matches_takeArguments (c : Cursor) :
    match c.takeArguments, c.takeEnclosed .round with
    | (.ok args, d), (.ok inner, _) =>
      c.takeEach = some (if inner.tokens = [] ∨ inner.tokens.head? = some "," then
        ⟨[], c.number⟩ :: args else args, d)
    | (.error _, _), (.error _, _) => c.takeEach = none
    | _, _ => False := by
  obtain ⟨passed, ts, n⟩ := c
  rw [Cursor.takeArguments, Cursor.takeEnclosed]
  cases he : Bracket.round.enclosed 0 ts with
  | none =>
    rw [arguments_eq_none.mpr he]
    exact Cursor.takeEach_eq_none he passed n
  | some p =>
    obtain ⟨inner, rest⟩ := p
    obtain ⟨args, ha, hlist⟩ := arguments_of_enclosed he
    obtain ⟨u, hu, -, rfl⟩ := Bracket.enclosed_eq_some_iff.mp he
    obtain rfl : u = ")" := beq_iff_eq.mp hu
    obtain ⟨arg, more, hall, hinner, hmore⟩ := hlist.exists_commas
    have heach : (Cursor.mk passed (inner ++ ")" :: rest) n).takeEach =
        some ((arg :: more).map (⟨·, n⟩), ⟨")" :: (inner.reverse ++ passed), rest, n⟩) := by
      rw [hinner]
      exact Cursor.takeEach_commas hall passed rest n
    rw [ha]
    simp only
    rw [heach, Cursor.skipTo_append_cons, hmore, apply_ite (List.map _)]
    rfl

/-- the comma in the inner bracket ends no read, and the one behind the opener ends the first -/
example :
    (Cursor.mk ["("] [",", "f", "(", "a", ",", "b", ")", ",", ")", "+"] 1).takeEach =
      some ([⟨[], 1⟩, ⟨["f", "(", "a", ",", "b", ")"], 1⟩, ⟨[], 1⟩],
        ⟨[")", ",", ")", "b", ",", "a", "(", "f", ",", "("], ["+"], 1⟩) := by cbv

end Markup
