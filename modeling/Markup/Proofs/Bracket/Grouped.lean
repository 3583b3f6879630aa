import Markup.Cursor
import Markup.Proofs.Bracket.Depth

/-!
# Properly nested brackets

In a line whose brackets are properly nested, each closed by one of its own kind, every scan for a
partner ends at the partner: a scan for a round one passes over square brackets, one for a square one
counts both kinds, and either way the tokens of a group leave the depth as it was
(`IsGrouped.depthOver`).  So the bracket check accepts the line (`takeEnclosed_of_isGrouped`).

* `IsGrouped`      the lines whose brackets are properly nested.
-/

namespace Markup

/-! ## groups -/

/-- tokens that are no brackets and groups, which are made of the same again.  Between the groups
there can be closers without an opener if `stray` allows it, but not in a group. -/
inductive IsGrouped : Bool → List String → Prop
  | nil {stray : Bool} : IsGrouped stray []
  | token {stray : Bool} {t : String} {ts : List String} (ht : Bracket.IsNeutral t)
      (h : IsGrouped stray ts) : IsGrouped stray (t :: ts)
  | closer (b : Bracket) {ts : List String} (h : IsGrouped true ts) : IsGrouped true (b.closer :: ts)
  | group (b : Bracket) {stray : Bool} {inner ts : List String} (hi : IsGrouped false inner)
      (h : IsGrouped stray ts) : IsGrouped stray (b.opener :: (inner ++ b.closer :: ts))

namespace IsGrouped

variable {stray : Bool} {ts : List String}

/-- what one group does to the depth of a scan, if the tokens in it leave the depth as it is -/
theorem depthOver_group {c : Bracket} {inner : List String} (b : Bracket)
    (hi : ∀ depth, b.depthOver depth inner = some depth) (depth : Nat) (rest : List String) :
    b.depthOver depth (c.opener :: (inner ++ c.closer :: rest)) = b.depthOver depth rest := by
  by_cases ho : b.opens c.opener = true
  · have hc : b.closes c.closer = true := by
      cases b <;> cases c <;> first | rfl | exact absurd ho (by decide)
    rw [Bracket.depthOver_cons_of_some (Bracket.depthAfter_of_opens ho depth),
      Bracket.depthOver_append_of_some (hi (depth + 1)),
      Bracket.depthOver_cons_of_some (Bracket.depthAfter_succ_of_closes hc depth)]
  · -- the scan counts round brackets only, and this is a square one
    obtain ⟨rfl, rfl⟩ : b = .round ∧ c = .square := by
      cases b <;> cases c <;> first | exact ⟨rfl, rfl⟩ | exact absurd rfl ho
    rw [Bracket.depthOver_cons_of_some (d := depth) rfl, Bracket.depthOver_append_of_some (hi depth),
      Bracket.depthOver_cons_of_some (d := depth) rfl]

/-- properly nested tokens leave the depth of every scan as it was -/
theorem depthOver (h : IsGrouped stray ts) (hs : stray = false) (b : Bracket) (depth : Nat) :
    b.depthOver depth ts = some depth := by
  induction h generalizing depth with
  | nil => rfl
  | token ht _ ih =>
    rw [Bracket.depthOver_cons_of_some (ht.depthAfter depth)]
    exact ih hs depth
  | closer => exact absurd hs (by decide)
  | group c _ _ ihi ih => rw [depthOver_group b (ihi rfl) depth, ih hs depth]

/-- the scan behind the opener of a group ends at its closer -/
theorem enclosed {inner : List String} (h : IsGrouped false inner) (b : Bracket)
    (rest : List String) : b.enclosed 0 (inner ++ b.closer :: rest) = some (inner, rest) :=
  Bracket.enclosed_eq_some_iff.mpr ⟨b.closer, b.closes_closer, h.depthOver rfl b 0, rfl⟩

/-- every bracket has its partner -/
theorem unclosed? (h : IsGrouped stray ts) : Markup.unclosed? ts = none := by
  induction h with
  | nil => exact unclosed?_nil
  | token ht _ ih => rw [unclosed?_cons_of_none ht.ofOpener?, ih]
  | closer b _ ih =>
    rw [unclosed?_cons_of_none (Bracket.ofOpener?_of_closes b.closes_closer), ih]
  | group b hi _ ihi ih =>
    rw [unclosed?_pair (hi.depthOver rfl b 0) b.closes_closer, ihi, ih]
    rfl

/-- every opener begins a group -/
theorem exists_group (h : IsGrouped stray ts) {b : Bracket} {before behind : List String}
    (hts : ts = before ++ b.opener :: behind) :
    ∃ inner after, IsGrouped false inner ∧ behind = inner ++ b.closer :: after := by
  have hopener : ∀ {t}, Bracket.ofOpener? t = none → t ≠ b.opener := by
    rintro t ht rfl
    rw [b.ofOpener?_opener] at ht
    exact absurd ht (by simp)
  induction h generalizing before behind with
  | nil => exact absurd hts (by simp)
  | token ht _ ih =>
    cases before with
    | nil => exact absurd (List.cons.inj hts).1 (hopener ht.ofOpener?)
    | cons u us => exact ih (List.cons.inj hts).2
  | closer c _ ih =>
    cases before with
    | nil =>
      have hc := Bracket.ofOpener?_of_closes c.closes_closer
      exact absurd (List.cons.inj hts).1 (hopener hc)
    | cons u us => exact ih (List.cons.inj hts).2
  | @group c _ inner ts hi _ ihi ih =>
    cases before with
    | nil =>
      obtain ⟨hc, rfl⟩ := List.cons.inj hts
      have hcb : some c = some b := by rw [← Bracket.ofOpener?_opener, hc, b.ofOpener?_opener]
      obtain rfl := Option.some.inj hcb
      exact ⟨inner, ts, hi, rfl⟩
    | cons u us =>
      obtain ⟨-, hsplit⟩ := List.cons.inj hts
      rcases List.append_eq_append_iff.mp hsplit with ⟨vs, rfl, hvs⟩ | ⟨vs, rfl, hvs⟩
      · -- the opener is behind the tokens of this group, and so behind its closer
        cases vs with
        | nil =>
          have hc := Bracket.ofOpener?_of_closes c.closes_closer
          exact absurd (List.cons.inj hvs).1 (hopener hc)
        | cons v vs => exact ih (List.cons.inj hvs).2
      · -- the opener is one of the tokens of this group
        cases vs with
        | nil =>
          have hc := Bracket.ofOpener?_of_closes c.closes_closer
          exact absurd (List.cons.inj hvs).1.symm (hopener hc)
        | cons v vs =>
          obtain ⟨rfl, rfl⟩ := List.cons.inj hvs
          obtain ⟨inner', after, hi', rfl⟩ := ihi rfl
          exact ⟨inner', after ++ c.closer :: ts, hi', by simp⟩

end IsGrouped

/-! ## the cursor -/

theorem Line.skip_cursor {ts before behind : List String} (hts : ts = before ++ behind) {k : Nat}
    (hk : before.length = k) (n : Nat) :
    (Line.mk ts n).cursor.skip k = ⟨before.reverse, behind, n⟩ := by
  subst hts hk
  simp [Line.cursor, Cursor.skip]

/-- the bracket check accepts a line whose brackets are properly nested, stray closers outside all
brackets apart.  Every opener begins a group, and behind it the scan for its partner gives the tokens
of the group and leaves the cursor behind its closer. -/
theorem takeEnclosed_of_isGrouped {ts : List String} (h : IsGrouped true ts) (n : Nat) :
    (Line.mk ts n).cursor.requireClosed = .ok () ∧
      (∀ (b : Bracket) (before behind : List String), ts = before ++ b.opener :: behind →
        ∃ inner after, IsGrouped false inner ∧ behind = inner ++ b.closer :: after) ∧
      ∀ (b : Bracket) (before inner after : List String),
        ts = before ++ b.opener :: (inner ++ b.closer :: after) → IsGrouped false inner →
          ((Line.mk ts n).cursor.skip (before.length + 1)).takeEnclosed b =
            (.ok ⟨inner, n⟩, (Line.mk ts n).cursor.skip (before.length + inner.length + 2)) := by
  refine ⟨requireClosed_eq_ok.mpr h.unclosed?, fun b before behind hts => h.exists_group hts, ?_⟩
  rintro b before inner after rfl hi
  have hread : inner ++ b.closer :: after = (inner ++ [b.closer]) ++ after := by simp
  -- the tokens before the group, and those before its end
  have hstart := Line.skip_cursor
    (show before ++ b.opener :: (inner ++ b.closer :: after) =
      (before ++ [b.opener]) ++ (inner ++ b.closer :: after) by simp)
    (show _ = before.length + 1 by simp) n
  have hend := Line.skip_cursor
    (show before ++ b.opener :: (inner ++ b.closer :: after) =
      (before ++ [b.opener] ++ (inner ++ [b.closer])) ++ after by simp)
    (show _ = before.length + inner.length + 2 by simp; omega) n
  rw [hstart, hend, Cursor.takeEnclosed]
  simp only [hi.enclosed b after]
  rw [hread, Cursor.skipTo_append, ← List.reverse_append]

/-- square brackets in round ones, round ones in square ones, and stray closers in front and behind -/
theorem takeEnclosed_of_isGrouped_menu :
    let inner := ["a", "[", "(", "i", ")", "]", ",", "b"]
    let ts := ["]", "f"] ++ Bracket.round.opener :: (inner ++ Bracket.round.closer :: [")", "+", "1"])
    IsGrouped true ts ∧ IsGrouped false inner ∧ (Line.mk ts 7).cursor.requireClosed = .ok () ∧
      (∃ i after, IsGrouped false i ∧
        inner ++ ")" :: [")", "+", "1"] = i ++ Bracket.round.closer :: after) ∧
      ((Line.mk ts 7).cursor.skip 3).takeEnclosed .round =
        (.ok ⟨inner, 7⟩, (Line.mk ts 7).cursor.skip 12) := by
  intro inner ts
  have htoken : ∀ {stray us} t, t ∉ ["(", ")", "[", "]"] → IsGrouped stray us →
      IsGrouped stray (t :: us) :=
    fun t ht h => .token (Bracket.isNeutral_iff.mpr ht) h
  have hindex : IsGrouped false (Bracket.round.opener :: (["i"] ++ Bracket.round.closer :: [])) :=
    .group .round (htoken "i" (by decide) .nil) .nil
  have hi : IsGrouped false inner := htoken "a" (by decide)
    (.group .square hindex (htoken "," (by decide) (htoken "b" (by decide) .nil)))
  have hbehind : IsGrouped true [")", "+", "1"] :=
    .closer .round (htoken "+" (by decide) (htoken "1" (by decide) .nil))
  have h : IsGrouped true ts :=
    .closer .square (htoken "f" (by decide) (.group .round hi hbehind))
  obtain ⟨hc, hg, hs⟩ := takeEnclosed_of_isGrouped h 7
  exact ⟨h, hi, hc, hg .round ["]", "f"] _ rfl, hs .round ["]", "f"] inner _ rfl hi⟩

end Markup
