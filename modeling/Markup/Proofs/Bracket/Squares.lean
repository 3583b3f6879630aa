import Markup.Proofs.Bracket.Arguments
import Markup.Proofs.Bracket.Grouped
import Markup.Proofs.Bracket.Pairing

/-!
# Square brackets that are cut

The scan for arguments counts round brackets only, so it cuts at a comma in a square bracket too, and
the argument in front of such a comma has an opener without a partner.  On an accepted line this is
all that can be wrong with an argument.  In a square bracket of the line all brackets are properly
nested (`IsClosed.isGrouped`), so the square brackets that are open at some place can be counted, and
the tokens up to a place at which no round bracket is open are accepted just if no square one is
(`IsClosed.unclosed?_prefix`).  Hence all arguments are accepted just if no square bracket is open at
a comma between them (`IsArgumentList.forall_closed_iff`).

* `openSquares`        the square brackets that are open after some tokens;
* `CommasOutside`      no comma at a certain depth stands in a square bracket.
-/

namespace Markup

/-! ## parts of accepted lines -/

section
variable {K K' : Bracket → String → Prop} {ts us : List String}

theorem IsClosed.mono (hK : ∀ b t, K b t → K' b t) (h : IsClosed K ts) : IsClosed K' ts := by
  induction h with
  | nil => exact .nil
  | skip ht _ ih => exact .skip ht ih
  | pair b _ hd ht hk _ ihi ih => exact .pair b ihi hd ht (hK _ _ hk) ih

theorem IsClosed.append (h : IsClosed K ts) (hu : IsClosed K us) : IsClosed K (ts ++ us) := by
  induction h with
  | nil => exact hu
  | skip ht _ ih => exact .skip ht ih
  | pair b hi hd ht hk _ _ ih =>
    rw [List.cons_append, List.append_assoc, List.cons_append]
    exact .pair b hi hd ht hk ih

theorem IsClosed.tail {t : String} (h : IsClosed K (t :: ts)) : IsClosed K ts := by
  cases h with
  | skip _ h => exact h
  | pair b hi _ ht _ h =>
    -- the closer is left over
    exact hi.append (.skip ht h)

theorem IsClosed.of_append (h : IsClosed K (ts ++ us)) : IsClosed K us := by
  induction ts with
  | nil => exact h
  | cons t ts ih => exact ih h.tail

theorem IsOwnCloser.endsScan {b : Bracket} {t : String} (h : IsOwnCloser b t) : EndsScan b t := by
  obtain rfl : t = b.closer := h
  exact b.closes_closer

theorem IsClosed.unclosed? (h : IsClosed IsOwnCloser ts) : Markup.unclosed? ts = none :=
  unclosed?_eq_none_iff.mpr (h.mono fun _ _ => IsOwnCloser.endsScan)

end

/-! ## in square brackets -/

theorem Bracket.isNeutral_of_not_closes {t : String} (ho : Bracket.ofOpener? t = none)
    (hc : Bracket.square.closes t = false) : Bracket.IsNeutral t := by
  rw [Bracket.isNeutral_iff]
  intro ht
  simp only [List.mem_cons, List.not_mem_nil, or_false] at ht
  rcases ht with rfl | rfl | rfl | rfl
  · exact absurd ho (by decide)
  · exact absurd hc (by decide)
  · exact absurd ho (by decide)
  · exact absurd hc (by decide)

/-- A scan that counts both kinds loses depth at each closer that has no opener, and never gains any.
So tokens that keep its depth have no such closer. -/
theorem IsClosed.isGrouped {ts : List String} (h : IsClosed IsOwnCloser ts) {n d : Nat}
    (hd : Bracket.square.depthOver n ts = some d) : d ≤ n ∧ (d = n → IsGrouped false ts) := by
  induction h generalizing n d with
  | nil =>
    obtain rfl := Option.some.inj hd
    exact ⟨Nat.le_refl _, fun _ => .nil⟩
  | @skip t ts ht _ ih =>
    obtain ⟨n', hn, hts⟩ := Option.bind_eq_some_iff.mp hd
    obtain ⟨hle, hgrouped⟩ := ih hts
    cases hc : Bracket.square.closes t with
    | false =>
      have hneutral := Bracket.isNeutral_of_not_closes ht hc
      obtain rfl : n = n' := Option.some.inj ((hneutral.depthAfter n).symm.trans hn)
      exact ⟨hle, fun he => .token hneutral (hgrouped he)⟩
    | true =>
      cases n with
      | zero =>
        rw [Bracket.depthAfter_zero_of_closes hc] at hn
        exact absurd hn (by simp)
      | succ n =>
        obtain rfl : n = n' :=
          Option.some.inj ((Bracket.depthAfter_succ_of_closes hc n).symm.trans hn)
        exact ⟨by omega, fun he => by omega⟩
  | @pair b inner rest t hi _ _ hk _ ihi ih =>
    obtain rfl : t = b.closer := hk
    have hopens : Bracket.square.opens b.opener = true := by cases b <;> rfl
    have hcloses : Bracket.square.closes b.closer = true := by cases b <;> rfl
    rw [Bracket.depthOver_cons_of_some (Bracket.depthAfter_of_opens hopens n),
      Bracket.depthOver_append] at hd
    obtain ⟨e, hinner, hd⟩ := Option.bind_eq_some_iff.mp hd
    obtain ⟨hle, hgrouped⟩ := ihi hinner
    cases e with
    | zero =>
      rw [Bracket.depthOver_cons_of_none (Bracket.depthAfter_zero_of_closes hcloses)] at hd
      exact absurd hd (by simp)
    | succ e =>
      rw [Bracket.depthOver_cons_of_some (Bracket.depthAfter_succ_of_closes hcloses e)] at hd
      obtain ⟨hle', hgrouped'⟩ := ih hd
      exact ⟨by omega, fun he => .group b (hgrouped (by omega)) (hgrouped' (by omega))⟩

/-! ## counting -/

/-- the number of open square brackets after one more token; a closer that has no opener does not
count -/
def squaresAfter (n : Nat) (t : String) : Nat :=
  if t = "[" then n + 1 else if t = "]" then n - 1 else n

/-- the number of open square brackets after these tokens, if there are `n` before them -/
def openSquares (n : Nat) (ts : List String) : Nat := ts.foldl squaresAfter n

theorem openSquares_cons (n : Nat) (t : String) (ts : List String) :
    openSquares n (t :: ts) = openSquares (squaresAfter n t) ts := rfl

theorem openSquares_append (n : Nat) (ts us : List String) :
    openSquares n (ts ++ us) = openSquares (openSquares n ts) us :=
  List.foldl_append

theorem squaresAfter_of_isNeutral {t : String} (ht : Bracket.IsNeutral t) (n : Nat) :
    squaresAfter n t = n := by
  have hmem := Bracket.isNeutral_iff.mp ht
  simp only [List.mem_cons, List.not_mem_nil, or_false, not_or] at hmem
  rw [squaresAfter, if_neg hmem.2.2.1, if_neg hmem.2.2.2]

theorem squaresAfter_zero {t : String} (ht : Bracket.ofOpener? t = none) : squaresAfter 0 t = 0 := by
  have hopener : t ≠ "[" := by
    rintro rfl
    exact absurd ht (by decide)
  rw [squaresAfter, if_neg hopener, ite_self]

theorem openSquares_group (b : Bracket) {inner : List String} (hi : ∀ n, openSquares n inner = n)
    (n : Nat) (rest : List String) :
    openSquares n (b.opener :: (inner ++ b.closer :: rest)) = openSquares n rest := by
  rw [openSquares_cons, openSquares_append, hi, openSquares_cons]
  cases b <;> rfl

theorem IsGrouped.openSquares_eq {stray : Bool} {ts : List String} (h : IsGrouped stray ts)
    (hs : stray = false) (n : Nat) : openSquares n ts = n := by
  induction h generalizing n with
  | nil => rfl
  | token ht _ ih =>
    rw [openSquares_cons, squaresAfter_of_isNeutral ht]
    exact ih hs n
  | closer => exact absurd hs (by decide)
  | group b _ _ ihi ih => rw [openSquares_group b (ihi rfl), ih hs n]

/-- the tokens in front of a place are in front of a certain token, or reach beyond it -/
theorem exists_of_append_eq {ts us inner rest : List String} {t : String}
    (h : inner ++ t :: rest = ts ++ us) :
    (∃ vs, inner = ts ++ vs ∧ us = vs ++ t :: rest) ∨
      ∃ vs, ts = inner ++ t :: vs ∧ rest = vs ++ us := by
  rcases List.append_eq_append_iff.mp h with ⟨vs, hts, hrest⟩ | ⟨vs, hinner, hus⟩
  · cases vs with
    | nil => exact .inl ⟨[], by rw [hts, List.append_nil, List.append_nil], hrest.symm⟩
    | cons v vs =>
      obtain ⟨rfl, hvs⟩ := List.cons.inj hrest
      exact .inr ⟨vs, hts, hvs⟩
  · exact .inl ⟨vs, hinner, hus⟩

/-- a bracket that is open stays open up to any place between properly nested tokens -/
theorem IsGrouped.le_openSquares {stray : Bool} {line ts us : List String}
    (h : IsGrouped stray line) (hs : stray = false) (hline : line = ts ++ us) (n : Nat) :
    n ≤ openSquares n ts := by
  induction h generalizing ts us n with
  | nil =>
    obtain ⟨rfl, -⟩ := List.append_eq_nil_iff.mp hline.symm
    exact Nat.le_refl n
  | token ht _ ih =>
    cases ts with
    | nil => exact Nat.le_refl n
    | cons v vs =>
      obtain ⟨rfl, hvs⟩ := List.cons.inj hline
      rw [openSquares_cons, squaresAfter_of_isNeutral ht]
      exact ih hs hvs n
  | closer => exact absurd hs (by decide)
  | @group b _ inner rest hi _ ihi ih =>
    cases ts with
    | nil => exact Nat.le_refl n
    | cons v vs =>
      obtain ⟨rfl, hvs⟩ := List.cons.inj hline
      rcases exists_of_append_eq hvs with ⟨ws, hinner, -⟩ | ⟨ws, rfl, hrest⟩
      · have hn : n ≤ squaresAfter n b.opener := by cases b <;> simp [squaresAfter, Bracket.opener]
        rw [openSquares_cons]
        exact Nat.le_trans hn (ihi rfl hinner _)
      · rw [openSquares_group b (hi.openSquares_eq rfl)]
        exact ih hs hrest n

/-! ## what stands in front of a place -/

section
variable {b : Bracket} {inner : List String}

/-- the depth of a round scan over the tokens that a bracket encloses -/
theorem IsClosed.round_depthOver (h : IsClosed IsOwnCloser inner)
    (hd : b.depthOver 0 inner = some 0) (depth : Nat) :
    Bracket.round.depthOver depth inner = some depth := by
  cases b with
  | round =>
    have hadd := Bracket.depthOver_add hd depth
    rwa [Nat.zero_add] at hadd
  | square => exact ((h.isGrouped hd).2 rfl).depthOver rfl .round depth

/-- tokens that are accepted leave no square bracket open -/
theorem openSquares_pair (h : IsClosed IsOwnCloser inner) (hd : b.depthOver 0 inner = some 0)
    (hn : openSquares 0 inner = 0) (rest : List String) :
    openSquares 0 (b.opener :: (inner ++ b.closer :: rest)) = openSquares 0 rest := by
  cases b with
  | round =>
    -- closers without an opener can stand in a round bracket, but they do not count
    show openSquares 0 (inner ++ ")" :: rest) = openSquares 0 rest
    rw [openSquares_append, hn]
    rfl
  | square => exact openSquares_group .square (((h.isGrouped hd).2 rfl).openSquares_eq rfl) 0 rest

theorem IsClosed.openSquares_eq {ts : List String} (h : IsClosed IsOwnCloser ts) :
    openSquares 0 ts = 0 := by
  induction h with
  | nil => rfl
  | skip ht _ ih => rw [openSquares_cons, squaresAfter_zero ht, ih]
  | @pair b inner rest t hi hd _ hk _ ihi ih =>
    obtain rfl : t = b.closer := hk
    rw [openSquares_pair hi hd ihi, ih]

/-- Of the tokens in front of a place at which no round bracket is open, the check finds a square
bracket without a partner, or nothing. -/
theorem IsClosed.unclosed?_prefix {line ts us : List String} (h : IsClosed IsOwnCloser line)
    (hline : line = ts ++ us) (hts : Bracket.round.depthOver 0 ts = some 0) :
    Markup.unclosed? ts = if openSquares 0 ts = 0 then none else some .square := by
  induction h generalizing ts us with
  | nil =>
    obtain ⟨rfl, -⟩ := List.append_eq_nil_iff.mp hline.symm
    exact unclosed?_nil
  | skip ht _ ih =>
    cases ts with
    | nil => exact unclosed?_nil
    | cons v vs =>
      obtain ⟨rfl, hvs⟩ := List.cons.inj hline
      obtain ⟨d, hd, hts⟩ := Option.bind_eq_some_iff.mp hts
      obtain ⟨-, rfl⟩ := Bracket.depthAfter_round_zero ht hd
      rw [unclosed?_cons_of_none ht, openSquares_cons, squaresAfter_zero ht]
      exact ih hvs hts
  | @pair b inner rest t hi hdi _ hk _ _ ih =>
    obtain rfl : t = b.closer := hk
    cases ts with
    | nil => exact unclosed?_nil
    | cons v vs =>
      obtain ⟨rfl, hvs⟩ := List.cons.inj hline
      rcases exists_of_append_eq hvs with ⟨ws, rfl, -⟩ | ⟨ws, rfl, hrest⟩
      · -- the place is in the bracket
        have hround := hi.round_depthOver hdi 1
        obtain ⟨d, hd⟩ : ∃ d, b.depthOver 0 vs = some d := by
          rw [Bracket.depthOver_append] at hdi
          obtain ⟨d, hd, -⟩ := Option.bind_eq_some_iff.mp hdi
          exact ⟨d, hd⟩
        cases b with
        | round =>
          -- a round one would be open
          have hopen := Bracket.depthAfter_of_opens (b := .round) (Bracket.opens_opener .round) 0
          have hvs := Bracket.depthOver_add hd 1
          rw [Bracket.depthOver_cons_of_some hopen] at hts
          exact absurd (hvs.symm.trans hts) (by simp)
        | square =>
          have hgrouped := (hi.isGrouped hdi).2 rfl
          have hopen : 1 ≤ openSquares 1 vs := hgrouped.le_openSquares rfl rfl 1
          have he : Bracket.square.enclosed 0 vs = none :=
            Bracket.enclosed_eq_none_iff.mpr (by rw [hd]; simp)
          rw [unclosed?_cons_of_unpaired (Bracket.ofOpener?_opener .square) he, if_neg]
          show openSquares 1 vs ≠ 0
          omega
      · -- the place is behind the bracket
        rw [IsGrouped.depthOver_group .round (hi.round_depthOver hdi)] at hts
        rw [unclosed?_pair hdi b.closes_closer, hi.unclosed?, Option.none_or,
          openSquares_pair hi hdi hi.openSquares_eq]
        exact ih hrest hts

end

/-! ## commas in square brackets -/

/-- at none of the commas at this depth of round brackets a square bracket is open -/
def CommasOutside (depth : Nat) (ts : List String) : Prop :=
  ∀ before behind, ts = before ++ "," :: behind →
    Bracket.round.depthOver 0 before = some depth → openSquares 0 before = 0

theorem commasOutside_iff {depth : Nat} {ts : List String} :
    CommasOutside depth ts ↔ ∀ i < ts.length, ts[i]? = some "," →
      Bracket.round.depthOver 0 (ts.take i) = some depth → openSquares 0 (ts.take i) = 0 := by
  constructor
  · intro h i hi ht hd
    refine h (ts.take i) (ts.drop (i + 1)) ?_ hd
    obtain ⟨_, he⟩ := List.getElem?_eq_some_iff.mp ht
    rw [← he, ← List.drop_eq_getElem_cons hi, List.take_append_drop]
  · rintro h before behind rfl hd
    have hi := h before.length (by simp) (by simp)
    rw [List.take_left] at hi
    exact hi hd

instance (depth : Nat) (ts : List String) : Decidable (CommasOutside depth ts) :=
  decidable_of_iff _ commasOutside_iff.symm

section
variable {arg : List String} {args : List (List String)}

/-- an argument has no comma at the depth of its bracket -/
theorem IsArgumentFrom.depthOver_ne {depth : Nat} {before behind : List String}
    (h : IsArgumentFrom depth (before ++ "," :: behind)) :
    Bracket.round.depthOver depth before ≠ some 0 := by
  induction before generalizing depth with
  | nil =>
    intro hd
    obtain ⟨hcomma, -⟩ := h
    exact hcomma ⟨rfl, Option.some.inj hd⟩
  | cons t ts ih =>
    obtain ⟨-, d, hd, hts⟩ := h
    rw [Bracket.depthOver_cons_of_some hd]
    exact ih hts

theorem IsArgument.commasOutside (h : IsArgument arg) : CommasOutside 0 arg := by
  rintro before behind rfl hd
  exact absurd hd (IsArgumentFrom.depthOver_ne h)

/-- the commas behind an argument: the one that ends it, and those behind that one -/
theorem commasOutside_cons (h : IsArgument arg) (rest : List String) :
    CommasOutside 0 (arg ++ "," :: rest) ↔ openSquares 0 arg = 0 ∧ CommasOutside 0 rest := by
  have hdepth : ∀ ts, Bracket.round.depthOver 0 (arg ++ "," :: ts) = Bracket.round.depthOver 0 ts := by
    intro ts
    rw [Bracket.depthOver_append_of_some h.depthOver,
      Bracket.depthOver_cons_of_some (depthAfter_comma 0)]
  have hcount : openSquares 0 arg = 0 → ∀ ts, openSquares 0 (arg ++ "," :: ts) = openSquares 0 ts := by
    intro harg ts
    rw [openSquares_append, harg]
    rfl
  constructor
  · intro hall
    have harg := hall arg rest rfl h.depthOver
    refine ⟨harg, fun before behind hrest hd => ?_⟩
    rw [← hcount harg]
    refine hall (arg ++ "," :: before) behind ?_ ((hdepth before).trans hd)
    rw [hrest, List.append_assoc, List.cons_append]
  · rintro ⟨harg, hrest⟩ before behind heq hd
    rcases exists_of_append_eq heq with ⟨vs, hbefore, hvs⟩ | ⟨vs, rfl, hvs⟩
    · cases vs with
      | nil =>
        rw [List.append_nil] at hbefore
        rw [← hbefore]
        exact harg
      | cons v vs =>
        -- a comma in the argument
        obtain ⟨rfl, -⟩ := List.cons.inj hvs
        rw [hbefore] at h
        exact absurd hd (IsArgumentFrom.depthOver_ne h)
    · rw [hcount harg]
      exact hrest vs behind hvs ((hdepth vs).symm.trans hd)

/-- where all arguments together are accepted, each by itself is if no comma between them is in a
square bracket -/
theorem forall_commas_iff (h : ∀ a ∈ args, IsArgument a) (hc : IsClosed IsOwnCloser (commas args)) :
    (∀ a ∈ args, Markup.unclosed? a = none) ↔ CommasOutside 0 (commas args) := by
  induction args with
  | nil => exact ⟨fun _ => IsArgument.commasOutside rfl, fun _ a ha => absurd ha List.not_mem_nil⟩
  | cons arg args ih =>
    obtain ⟨harg, hargs⟩ := List.forall_mem_cons.mp h
    cases args with
    | nil =>
      rw [commas_singleton] at hc ⊢
      refine ⟨fun _ => harg.commasOutside, fun _ a ha => ?_⟩
      obtain rfl := List.mem_singleton.mp ha
      exact hc.unclosed?
    | cons next args =>
      rw [commas_cons_cons] at hc ⊢
      rw [commasOutside_cons harg, List.forall_mem_cons, ih hargs hc.of_append.tail,
        hc.unclosed?_prefix rfl harg.depthOver]
      simp

end

namespace IsArgumentList

variable {args : List (List String)} {inner : List String}

theorem isClosed (h : IsArgumentList args inner) (hc : Markup.unclosed? inner = .none) :
    IsClosed IsOwnCloser (commas args) := by
  rw [h.unclosed?_eq, unclosed?_eq_none_iff] at hc
  exact (hc.own (depthOver_commas h.isArgument)).1

/-- an argument that is not accepted has a square bracket without a partner -/
theorem unclosed?_of_mem (h : IsArgumentList args inner) (hc : Markup.unclosed? inner = .none)
    {arg : List String} (ha : arg ∈ args) {b : Bracket} (hb : Markup.unclosed? arg = some b) :
    b = .square := by
  obtain ⟨before, behind, hcommas⟩ := exists_commas_of_mem ha
  have hclosed := h.isClosed hc
  rw [hcommas] at hclosed
  rw [hclosed.of_append.unclosed?_prefix rfl (h.isArgument arg ha).depthOver] at hb
  split at hb
  · exact absurd hb (by simp)
  · exact (Option.some.inj hb).symm

/-- all arguments are accepted just if no comma between them is in a square bracket -/
theorem forall_closed_iff (h : IsArgumentList args inner) (hc : Markup.unclosed? inner = .none) :
    (∀ arg ∈ args, Markup.unclosed? arg = .none) ↔ CommasOutside 0 inner := by
  rw [forall_commas_iff h.isArgument (h.isClosed hc)]
  rcases h.eq_commas with rfl | rfl
  · exact Iff.rfl
  · have hcons := commasOutside_cons (show IsArgument [] from rfl) (commas args)
    exact (hcons.trans (and_iff_right rfl)).symm

end IsArgumentList
end Markup
