import Markup.Proofs.Bracket.Splitting
import Markup.Proofs.Cursor.Session

/-!
# What a read consumes

A read that runs to a token moves the cursor over the tokens that it gives and over the token that
ends it, which is dropped, and over no other (`Session.run_consumes`).  What ends a read is told by the
tokens of the line alone, without a scan: for the two reads that count brackets, by the level of the
brackets behind the tokens that were read.

* `Bracket.level`       openers less closers, counted from a level on;
* `StopsAt`             a list of tokens cut at the first one that ends a read;
* `Cursor.Consumes`     the cursors before and behind such a read.
-/

namespace Markup

/-! ## levels -/

namespace Bracket

/-- the level behind some tokens: the openers less the closers, from `start` on -/
def level (b : Bracket) (start : Nat) (ts : List String) : Int :=
  start + ts.countP b.opens - ts.countP b.closes

theorem level_nil (b : Bracket) (start : Nat) : b.level start [] = start := by
  simp [level]

theorem level_cons {b : Bracket} {depth d : Nat} {t : String} (h : b.depthAfter depth t = some d)
    (ts : List String) : b.level (depth + 1) (t :: ts) = b.level (d + 1) ts := by
  unfold level
  rw [List.countP_cons, List.countP_cons]
  unfold depthAfter at h
  by_cases ho : b.opens t = true
  · rw [if_pos ho] at h
    obtain rfl := Option.some.inj h
    rw [if_pos ho, if_neg (not_closes_of_opens ho)]
    push_cast
    omega
  · rw [if_neg ho] at h
    by_cases hc : b.closes t = true
    · rw [if_pos hc] at h
      cases depth with
      | zero => exact absurd h nofun
      | succ depth =>
        obtain rfl := Option.some.inj h
        rw [if_neg ho, if_pos hc]
        push_cast
        omega
    · rw [if_neg hc] at h
      obtain rfl := Option.some.inj h
      rw [if_neg ho, if_neg hc]
      push_cast
      omega

/-- the level is that of the enclosing bracket just at the closer that ends the scan -/
theorem level_singleton_of_none {b : Bracket} {depth : Nat} {t : String}
    (h : b.depthAfter depth t = none) : b.level (depth + 1) [t] = 0 := by
  obtain ⟨rfl, hc⟩ := depthAfter_eq_none.mp h
  rw [level, List.countP_singleton, List.countP_singleton, if_pos hc,
    if_neg fun ho => not_closes_of_opens ho hc]
  rfl

theorem level_singleton_of_some {b : Bracket} {depth d : Nat} {t : String}
    (h : b.depthAfter depth t = some d) : b.level (depth + 1) [t] = d + 1 := by
  rw [level_cons h, level_nil]
  push_cast
  rfl

end Bracket

/-! ## what ends a read -/

/-- the token, behind those that were read before it, closes a bracket that was open at this level -/
def Bracket.EndsAt (b : Bracket) (start : Nat) (before : List String) (t : String) : Prop :=
  b.closes t = true ∧ b.level start (before ++ [t]) = 0

/-- the token, behind those that were read before it, closes the round bracket that was open at this
level, or is a `stop`; with `outer`, the `stop` is at the level of the bracket, itself counted -/
def EndsLineAt (stop : String) (outer : Bool) (start : Nat) (before : List String) (t : String) : Prop :=
  (t = ")" ∧ Bracket.round.level start (before ++ [t]) = 0) ∨
    (t = stop ∧ (outer = true → Bracket.round.level start (before ++ [t]) = 1))

/-- the tokens are those that are read, then the first one that ends the read, if there is one, and
then the rest -/
structure StopsAt (ends : List String → String → Prop) (ts read : List String)
    (dropped : Option String) (rest : List String) : Prop where
  tokens : ts = (read ++ dropped.toList) ++ rest
  passes : ∀ before t after, read = before ++ t :: after → ¬ends before t
  ends : ∀ t, dropped = some t → ends read t
  exhausted : dropped = none → rest = []

namespace StopsAt

variable {ends ends' : List String → String → Prop} {ts read rest : List String} {t : String}
  {dropped : Option String}

theorem nil (ends : List String → String → Prop) : StopsAt ends [] [] none [] :=
  ⟨rfl, fun before _ _ h => absurd h (by cases before <;> nofun), nofun, fun _ => rfl⟩

theorem stop (h : ends [] t) (ts : List String) : StopsAt ends (t :: ts) [] (some t) ts := by
  refine ⟨rfl, fun before _ _ h => absurd h (by cases before <;> nofun), ?_, nofun⟩
  rintro _ ⟨⟩
  exact h

theorem cons (ht : ¬ends [] t) (h : StopsAt ends' ts read dropped rest)
    (he : ∀ before u, ends (t :: before) u ↔ ends' before u) :
    StopsAt ends (t :: ts) (t :: read) dropped rest := by
  refine ⟨congrArg (t :: ·) h.tokens, ?_, fun u hu => (he read u).mpr (h.ends u hu), h.exhausted⟩
  rintro before u after hread
  cases before with
  | nil =>
    obtain ⟨rfl, -⟩ := List.cons.inj hread
    exact ht
  | cons v before =>
    obtain ⟨rfl, hrest⟩ := List.cons.inj hread
    exact fun hu => h.passes before u after hrest ((he before u).mp hu)

end StopsAt

theorem stopsAt_text (stop : String) (ts : List String) :
    ∃ dropped, StopsAt (fun _ t => t = stop) ts (ts.takeWhile (· != stop)) dropped
      (ts.dropWhile (· != stop)).tail := by
  induction ts with
  | nil => exact ⟨none, .nil _⟩
  | cons t ts ih =>
    by_cases ht : t = stop
    · have hb : ¬(t != stop) = true := fun hb => bne_iff_ne.mp hb ht
      rw [List.takeWhile_cons, List.dropWhile_cons, if_neg hb, if_neg hb]
      exact ⟨some t, .stop ht ts⟩
    · have hb : (t != stop) = true := bne_iff_ne.mpr ht
      rw [List.takeWhile_cons, List.dropWhile_cons, if_pos hb, if_pos hb]
      obtain ⟨dropped, h⟩ := ih
      exact ⟨dropped, .cons ht h fun _ _ => Iff.rfl⟩

theorem stopsAt_upToStop (stop : String) (outer : Bool) (depth : Nat) (ts : List String) :
    ∃ dropped, StopsAt (EndsLineAt stop outer (depth + 1)) ts (upToStop stop outer depth ts).1 dropped
      (upToStop stop outer depth ts).2 := by
  induction ts generalizing depth with
  | nil => exact ⟨none, .nil _⟩
  | cons t ts ih =>
    unfold upToStop
    cases hd : Bracket.round.depthAfter depth t with
    | none =>
      have ht : t = ")" := beq_iff_eq.mp (Bracket.depthAfter_eq_none.mp hd).2
      exact ⟨some t, .stop (.inl ⟨ht, Bracket.level_singleton_of_none hd⟩) ts⟩
    | some d =>
      -- a `stop` that is a bracket itself is counted before it is compared
      have hlevel := Bracket.level_singleton_of_some hd
      by_cases ht : t = stop ∧ (outer = true → d = 0)
      · simp only [if_pos ht]
        refine ⟨some t, .stop (.inr ⟨ht.1, fun ho => ?_⟩) ts⟩
        rw [List.nil_append, hlevel, ht.2 ho]
        rfl
      · simp only [if_neg ht]
        obtain ⟨dropped, h⟩ := ih d
        refine ⟨dropped, .cons ?_ h fun before u => ?_⟩
        · rintro (⟨-, h0⟩ | ⟨hs, h1⟩)
          · rw [List.nil_append, hlevel] at h0
            omega
          · refine ht ⟨hs, fun ho => ?_⟩
            have h1 := h1 ho
            rw [List.nil_append, hlevel] at h1
            omega
        · rw [EndsLineAt, EndsLineAt, List.cons_append, Bracket.level_cons hd]

theorem stopsAt_enclosed (b : Bracket) (depth : Nat) (ts : List String) :
    match b.enclosed depth ts with
    | some (inner, rest) => ∃ t, StopsAt (b.EndsAt (depth + 1)) ts inner (some t) rest
    | none => StopsAt (b.EndsAt (depth + 1)) ts ts none [] := by
  induction ts generalizing depth with
  | nil => exact .nil _
  | cons t ts ih =>
    cases hd : b.depthAfter depth t with
    | none =>
      rw [Bracket.enclosed_cons_of_none hd]
      have hc := (Bracket.depthAfter_eq_none.mp hd).2
      exact ⟨t, .stop ⟨hc, Bracket.level_singleton_of_none hd⟩ ts⟩
    | some d =>
      have ht : ¬b.EndsAt (depth + 1) [] t := by
        rintro ⟨-, h0⟩
        rw [List.nil_append, Bracket.level_singleton_of_some hd] at h0
        omega
      have hends : ∀ before u, b.EndsAt (depth + 1) (t :: before) u ↔ b.EndsAt (d + 1) before u := by
        intro before u
        rw [Bracket.EndsAt, Bracket.EndsAt, List.cons_append, Bracket.level_cons hd]
      have ih := ih d
      rw [Bracket.enclosed_cons_of_some hd]
      cases he : b.enclosed d ts with
      | none =>
        rw [he] at ih
        exact .cons ht ih hends
      | some p =>
        rw [he] at ih
        obtain ⟨u, h⟩ := ih
        exact ⟨u, .cons ht h hends⟩

/-! ## reads -/

namespace Cursor

/-- the cursor moves from `c` to `d` over the tokens that are read and over the one that ends the read,
which is the first such token behind `c`; if there is none, the line runs out -/
structure Consumes (ends : List String → String → Prop) (c d : Cursor) (read : List String)
    (dropped : Option String) : Prop where
  line : d.line = c.line
  position : d.position = c.position + (read ++ dropped.toList).length
  between : (c.line.tokens.drop c.position).take (d.position - c.position) = read ++ dropped.toList
  passes : ∀ before t after, read = before ++ t :: after → ¬ends before t
  ends : ∀ t, dropped = some t → ends read t
  exhausted : dropped = none → d.position = c.line.tokens.length

theorem drop_position (c : Cursor) : c.line.tokens.drop c.position = c.ahead := by
  rw [line, position, ← List.length_reverse, List.drop_left]

theorem consumes_skipTo {ends : List String → String → Prop} {c : Cursor} {read rest : List String}
    {dropped : Option String} (h : StopsAt ends c.ahead read dropped rest) :
    c.Consumes ends (c.skipTo rest) read dropped := by
  have hlen : c.ahead.length - rest.length = (read ++ dropped.toList).length := by
    rw [h.tokens, List.length_append, Nat.add_sub_cancel]
  have hposition : (c.skipTo rest).position = c.position + (read ++ dropped.toList).length := by
    rw [skipTo, position_skip, ← hlen, Nat.min_eq_left (Nat.sub_le _ _)]
  refine ⟨c.line_skipTo rest, hposition, ?_, h.passes, h.ends, fun hnone => ?_⟩
  · rw [hposition, Nat.add_sub_cancel_left, drop_position, h.tokens, List.take_left]
  · have hline : c.line.tokens.length = c.position + c.ahead.length := by
      rw [line, List.length_append, List.length_reverse, position]
    rw [hposition, hline, h.tokens, h.exhausted hnone, List.append_nil]

variable (c : Cursor)

theorem consumes_takeText (stop : String) : ∃ read dropped, (c.takeText stop).1 = spaced read ∧
    c.Consumes (fun _ t => t = stop) (c.takeText stop).2 read dropped := by
  obtain ⟨dropped, h⟩ := stopsAt_text stop c.ahead
  exact ⟨_, dropped, rfl, consumes_skipTo h⟩

theorem consumes_takeLine (stop : String) (outer : Bool) : ∃ dropped,
    c.Consumes (EndsLineAt stop outer 1) (c.takeLine stop outer).2 (c.takeLine stop outer).1.tokens
      dropped := by
  obtain ⟨dropped, h⟩ := stopsAt_upToStop stop outer 0 c.ahead
  exact ⟨dropped, consumes_skipTo h⟩

theorem consumes_takeEnclosed (b : Bracket) :
    match c.takeEnclosed b with
    | (.ok inner, d) => inner.number = c.number ∧
      ∃ t, c.Consumes (b.EndsAt 1) d inner.tokens (some t)
    | (.error u, d) => u = ⟨b, c.number⟩ ∧ c.Consumes (b.EndsAt 1) d c.ahead none := by
  have h := stopsAt_enclosed b 0 c.ahead
  unfold takeEnclosed
  cases he : b.enclosed 0 c.ahead with
  | none =>
    rw [he] at h
    exact ⟨rfl, consumes_skipTo h⟩
  | some p =>
    rw [he] at h
    obtain ⟨t, h⟩ := h
    exact ⟨rfl, t, consumes_skipTo h⟩

theorem consumes_takeArguments :
    match c.takeArguments with
    | (.ok _, d) => ∃ inner t, c.Consumes (Bracket.round.EndsAt 1) d inner (some t)
    | (.error u, d) => u = ⟨.round, c.number⟩ ∧
      c.Consumes (Bracket.round.EndsAt 1) d c.ahead none := by
  have h := stopsAt_enclosed .round 0 c.ahead
  unfold takeArguments
  cases he : Bracket.round.enclosed 0 c.ahead with
  | none =>
    rw [he] at h
    rw [arguments_eq_none.mpr he]
    exact ⟨rfl, consumes_skipTo h⟩
  | some p =>
    rw [he] at h
    obtain ⟨args, ha, -⟩ := arguments_of_enclosed he
    obtain ⟨t, h⟩ := h
    rw [ha]
    exact ⟨p.1, t, consumes_skipTo h⟩

end Cursor

/-- Whatever was done with the cursor of a line, it stays in the line, and only a return to the start
or to a copy takes it back.  The reads that run to a token move over the tokens that they give and over
the token that ends them, the first such token, unless the line runs out before there is one.  Only then
a bracket has no partner, and its enclosed tokens and its arguments are missing both. -/
theorem Session.run_consumes (line : Line) (os : List Cursor.Operation) :
    let s := (line.session.run os).2
    let c := s.cursor
    c.line = line ∧ c.position ≤ line.tokens.length ∧
      (∀ o, o = .rewind ∨ (∃ i, o = .restore i) ∨ c.position ≤ (s.step o).2.cursor.position) ∧
      (∀ stop, ∃ read dropped, (c.takeText stop).1 = spaced read ∧
        c.Consumes (fun _ t => t = stop) (c.takeText stop).2 read dropped) ∧
      (∀ stop outer, ∃ dropped, (c.takeLine stop outer).1.number = line.number ∧
        c.Consumes (EndsLineAt stop outer 1) (c.takeLine stop outer).2 (c.takeLine stop outer).1.tokens
          dropped) ∧
      (∀ b, match c.takeEnclosed b with
        | (.ok inner, d) => inner.number = line.number ∧
          ∃ t, c.Consumes (b.EndsAt 1) d inner.tokens (some t)
        | (.error u, d) => u = ⟨b, line.number⟩ ∧
          c.Consumes (b.EndsAt 1) d (line.tokens.drop c.position) none) ∧
      match c.takeArguments with
      | (.ok _, d) => ∃ inner t, c.Consumes (Bracket.round.EndsAt 1) d inner (some t)
      | (.error u, d) => u = ⟨.round, line.number⟩ ∧
        c.Consumes (Bracket.round.EndsAt 1) d (line.tokens.drop c.position) none := by
  intro s c
  have hin : s.IsIn line := (isIn_session line).run os
  have hline : c.line = line := hin.cursor
  have hnumber : c.number = line.number := congrArg Line.number hline
  have hahead : line.tokens.drop c.position = c.ahead := by
    rw [← hline]
    exact c.drop_position
  refine ⟨hline, hline ▸ c.position_le, position_le_step s, c.consumes_takeText, ?_, ?_, ?_⟩
  · intro stop outer
    obtain ⟨dropped, h⟩ := c.consumes_takeLine stop outer
    exact ⟨dropped, hnumber, h⟩
  · rw [hahead, ← hnumber]
    exact c.consumes_takeEnclosed
  · rw [hahead, ← hnumber]
    exact c.consumes_takeArguments

/-- a stop that is a closer ends a read at the closer of an inner bracket -/
example : (⟨["(", "x", ")", "y", ")"], 1⟩ : Line).cursor.takeLine ")" true =
    (⟨["(", "x"], 1⟩, ⟨[")", "x", "("], ["y", ")"], 1⟩) := by
  decide

end Markup
