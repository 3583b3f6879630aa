import Markup.Proofs.Bracket.Arguments
import Mathlib.Data.Nat.PSub

/-!
# Scans with a counter

A scan for a partner can be written with one counter for the open brackets, the enclosing one among
them, which is lowered at each closer before it is looked at.  The scans written so have no outcome
(`none`) if the counter is lowered at zero.  That never happens, for whatever tokens: each of them has
the outcome of the scan that it stands for.

* `Bracket.count?`                                    the counter behind a token;
* `Bracket.enclosed?`, `upToStop?`, `arguments?`    the scans behind an opener;
* `unpaired?`                                          the bracket check by such scans.
-/

namespace Markup

/-! ## the counter -/

namespace Bracket

/-- the counter behind a token -/
def count? (b : Bracket) (count : Nat) (t : String) : Option Nat :=
  let count := if b.opens t then count + 1 else count
  if b.closes t then count.ppred else some count

/-- a counter at zero cannot be lowered -/
example : round.count? 0 ")" = none := rfl

variable {b : Bracket} {depth d : Nat} {t : String}

theorem count?_of_opens (h : b.opens t = true) (count : Nat) : b.count? count t = some (count + 1) := by
  unfold count?
  rw [if_neg (not_closes_of_opens h), if_pos h]

/-- in an open bracket the counter can be lowered, and it is zero at the partner of the bracket -/
theorem count?_of_none (h : b.depthAfter depth t = none) : b.count? (depth + 1) t = some 0 := by
  obtain ⟨rfl, hc⟩ := depthAfter_eq_none.mp h
  unfold count?
  rw [if_pos hc, if_neg fun ho => not_closes_of_opens ho hc]
  rfl

theorem count?_of_some (h : b.depthAfter depth t = some d) :
    b.count? (depth + 1) t = some (d + 1) := by
  by_cases ho : b.opens t = true
  · rw [depthAfter_of_opens ho] at h
    rw [count?_of_opens ho, ← Option.some.inj h]
  · unfold count?
    unfold depthAfter at h
    rw [if_neg ho] at h ⊢
    by_cases hc : b.closes t = true
    · rw [if_pos hc] at h ⊢
      cases depth with
      | zero => exact absurd h nofun
      | succ depth =>
        obtain rfl := Option.some.inj h
        rfl
    · rw [if_neg hc] at h ⊢
      rw [← Option.some.inj h]

/-! ## what a bracket encloses -/

/-- the tokens up to the closer at which the counter is zero, and the tokens behind it -/
def enclosed? (b : Bracket) : Nat → List String → Option (Option (List String × List String))
  | _, [] => some none
  | count, t :: ts =>
    (b.count? count t).bind fun count =>
      if b.closes t ∧ count = 0 then some (some ([], ts))
      else (b.enclosed? count ts).map (Option.map fun (inner, rest) => (t :: inner, rest))

theorem enclosed?_eq (b : Bracket) (depth : Nat) (ts : List String) :
    b.enclosed? (depth + 1) ts = some (b.enclosed depth ts) := by
  induction ts generalizing depth with
  | nil => rfl
  | cons t ts ih =>
    rw [enclosed?]
    cases hd : b.depthAfter depth t with
    | none =>
      rw [count?_of_none hd, enclosed_cons_of_none hd, Option.bind_some,
        if_pos ⟨(depthAfter_eq_none.mp hd).2, rfl⟩]
    | some d =>
      rw [count?_of_some hd, enclosed_cons_of_some hd, Option.bind_some,
        if_neg fun h => Nat.succ_ne_zero d h.2, ih]
      rfl

end Bracket

/-! ## up to a stop -/

/-- the tokens up to the first one that is `stop` or the closer at which the counter is zero; with
`outer`, a `stop` counts only where the counter is one -/
def upToStop? (stop : String) (outer : Bool) :
    Nat → List String → Option (List String × List String)
  | _, [] => some ([], [])
  | count, t :: ts =>
    (Bracket.round.count? count t).bind fun count =>
      if t = ")" ∧ count = 0 then some ([], ts)
      else if t = stop ∧ (outer = true → count = 1) then some ([], ts)
      else (upToStop? stop outer count ts).map fun (read, rest) => (t :: read, rest)

theorem upToStop?_eq (stop : String) (outer : Bool) (depth : Nat) (ts : List String) :
    upToStop? stop outer (depth + 1) ts = some (upToStop stop outer depth ts) := by
  induction ts generalizing depth with
  | nil => rfl
  | cons t ts ih =>
    rw [upToStop?, upToStop]
    cases hd : Bracket.round.depthAfter depth t with
    | none =>
      have ht : t = ")" := beq_iff_eq.mp (Bracket.depthAfter_eq_none.mp hd).2
      rw [Bracket.count?_of_none hd, Option.bind_some, if_pos ⟨ht, rfl⟩]
    | some d =>
      have hstop : (t = stop ∧ (outer = true → d + 1 = 1)) ↔ t = stop ∧ (outer = true → d = 0) := by
        rw [Nat.succ_inj (b := 0)]
      rw [Bracket.count?_of_some hd, Option.bind_some, if_neg fun h => Nat.succ_ne_zero d h.2, ih]
      simp only
      by_cases h : t = stop ∧ (outer = true → d = 0)
      · rw [if_pos (hstop.mpr h), if_pos h]
      · rw [if_neg (hstop.not.mpr h), if_neg h]
        rfl

/-! ## arguments -/

def pushToLast (args : List (List String)) (t : String) : List (List String) :=
  match args.getLast? with
  | some arg => args.dropLast ++ [arg ++ [t]]
  | none => [[t]]

theorem pushToLast_concat (args : List (List String)) (arg : List String) (t : String) :
    pushToLast (args ++ [arg]) t = args ++ [arg ++ [t]] := by
  rw [pushToLast, List.getLast?_concat]
  simp only
  rw [List.dropLast_concat]

/-- the arguments up to the closer at which the counter is zero, behind those that were read, and the
tokens behind the closer -/
def arguments? (args : List (List String)) :
    Nat → List String → Option (Option (List (List String) × List String))
  | _, [] => some none
  | count, t :: ts =>
    (Bracket.round.count? count t).bind fun count =>
      if t = ")" ∧ count = 0 then some (some (args, ts))
      else if t = "," ∧ count = 1 then arguments? (args ++ [[]]) count ts
      else arguments? (pushToLast args t) count ts

theorem arguments?_concat (args : List (List String)) (arg : List String) (depth : Nat)
    (ts : List String) : arguments? (args ++ [arg]) (depth + 1) ts =
      some ((argumentsFrom depth ts).map fun (arg', args', rest) =>
        (args ++ (arg ++ arg') :: args', rest)) := by
  induction ts generalizing args arg depth with
  | nil => rfl
  | cons t ts ih =>
    rw [arguments?, argumentsFrom]
    cases hd : Bracket.round.depthAfter depth t with
    | none =>
      have ht : t = ")" := beq_iff_eq.mp (Bracket.depthAfter_eq_none.mp hd).2
      rw [Bracket.count?_of_none hd, Option.bind_some, if_pos ⟨ht, rfl⟩]
      simp
    | some d =>
      -- the counter is looked at behind the token, the depth before it: for a comma it is the same
      have hcomma : (t = "," ∧ d + 1 = 1) ↔ t = "," ∧ depth = 0 := by
        refine and_congr_right fun ht => ?_
        rw [ht, depthAfter_comma] at hd
        obtain rfl := Option.some.inj hd
        exact Nat.succ_inj
      rw [Bracket.count?_of_some hd, Option.bind_some, if_neg fun h => Nat.succ_ne_zero d h.2]
      simp only
      by_cases h : t = "," ∧ depth = 0
      · rw [if_pos (hcomma.mpr h), if_pos h, ih, Option.map_map]
        simp [Function.comp_def]
      · rw [if_neg (hcomma.not.mpr h), if_neg h, pushToLast_concat, ih, Option.map_map]
        simp [Function.comp_def]

theorem arguments?_eq (ts : List String) : arguments? [] 1 ts = some (arguments ts) := by
  cases ts with
  | nil => rfl
  | cons t ts =>
    rw [arguments?, arguments]
    cases hd : Bracket.round.depthAfter 0 t with
    | none =>
      have ht : t = ")" := beq_iff_eq.mp (Bracket.depthAfter_eq_none.mp hd).2
      rw [Bracket.count?_of_none hd, Option.bind_some, if_pos ⟨ht, rfl⟩, if_pos ht]
    | some d =>
      have hc : t ≠ ")" := by
        rintro rfl
        cases hd
      rw [Bracket.count?_of_some hd, Option.bind_some, if_neg fun h => Nat.succ_ne_zero d h.2, if_neg hc]
      by_cases hm : t = ","
      · rw [hm, depthAfter_comma] at hd
        obtain rfl := Option.some.inj hd
        rw [if_pos ⟨hm, rfl⟩, if_pos hm]
        exact arguments?_concat [] [] 0 ts
      · rw [if_neg fun h => hm h.1, if_neg hm]
        refine (arguments?_concat [] [t] d ts).trans ?_
        rw [argumentsFrom, hd]
        simp only
        rw [if_neg fun h => hm h.1, Option.map_map]
        rfl

/-! ## the bracket check -/

/-- the first bracket without a partner, by scans with a counter -/
def unpaired? : List String → Option (Option Bracket)
  | [] => some none
  | t :: ts =>
    match Bracket.ofOpener? t with
    | none => unpaired? ts
    | some b =>
      match h : b.enclosed? 1 ts with
      | none => none
      | some none => some (some b)
      | some (some (inner, rest)) =>
        have := Bracket.length_of_enclosed (Option.some.inj ((b.enclosed?_eq 0 ts).symm.trans h))
        (unpaired? inner).bind fun
          | some b => some (some b)
          | none => unpaired? rest
termination_by tokens => tokens.length
decreasing_by all_goals simp only [List.length_cons]; omega

theorem unpaired?_eq (ts : List String) : unpaired? ts = some (unclosed? ts) := by
  match ts with
  | [] => rw [unpaired?, unclosed?_nil]
  | t :: ts =>
    rw [unpaired?]
    cases ho : Bracket.ofOpener? t with
    | none =>
      rw [unclosed?_cons_of_none ho]
      exact unpaired?_eq ts
    | some b =>
      have heq := b.enclosed?_eq 0 ts
      simp only
      split
      · next h => exact absurd (heq.symm.trans h) nofun
      · next h =>
        have he := Option.some.inj (heq.symm.trans h)
        rw [unclosed?_cons_of_unpaired ho he]
      · next inner rest h =>
        have he := Option.some.inj (heq.symm.trans h)
        have hlen := Bracket.length_of_enclosed he
        rw [unclosed?_cons_of_paired ho he, unpaired?_eq inner, unpaired?_eq rest]
        cases unclosed? inner <;> rfl
termination_by ts.length
decreasing_by all_goals simp only [List.length_cons]; omega

end Markup
