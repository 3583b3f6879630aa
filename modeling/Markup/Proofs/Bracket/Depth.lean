import Markup.Proofs.Bracket

/-!
# The depth of a scan for a partner

What a bracket encloses are the tokens over which the depth of its scan comes back to where it began,
before the first closer at that depth (`Bracket.enclosed_eq_some_iff`).  The depth over two lists of
tokens is that over the first and then over the second, and a scan that begins deeper stays deeper by
as much, so a part of a line can be looked at by itself.

* `Bracket.opener`       the token that opens a bracket;
* `Bracket.depthOver`    the depth after some tokens.
-/

namespace Markup
namespace Bracket

variable {b : Bracket}

/-! ## tokens -/

def opener : Bracket → String
  | round => "("
  | square => "["

theorem ofOpener?_opener (b : Bracket) : ofOpener? b.opener = some b := by
  cases b <;> rfl

theorem ofOpener?_eq_some {t : String} : ofOpener? t = some b ↔ t = b.opener := by
  constructor
  · intro h
    unfold ofOpener? at h
    split at h
    · next ht =>
      obtain rfl := Option.some.inj h
      exact ht
    · split at h
      · next ht =>
        obtain rfl := Option.some.inj h
        exact ht
      · exact absurd h (by simp)
  · rintro rfl
    exact ofOpener?_opener b

theorem eq_of_closes {t : String} (h : b.closes t = true) : t = ")" ∨ t = "]" := by
  cases b with
  | round => exact .inl (beq_iff_eq.mp h)
  | square => exact (Bool.or_eq_true_iff.mp h).imp beq_iff_eq.mp beq_iff_eq.mp

theorem ofOpener?_of_closes {t : String} (h : b.closes t = true) : ofOpener? t = none := by
  rcases eq_of_closes h with rfl | rfl <;> rfl

theorem not_opens_of_closes {t : String} (h : b.closes t = true) : b.opens t = false := by
  rcases eq_of_closes h with rfl | rfl <;> cases b <;> rfl

theorem not_closes_of_opens {t : String} (h : b.opens t = true) : b.closes t ≠ true := by
  intro hc
  rw [not_opens_of_closes hc] at h
  exact Bool.false_ne_true h

theorem closes_closer (b : Bracket) : b.closes b.closer = true := by
  cases b <;> rfl

theorem opens_opener (b : Bracket) : b.opens b.opener = true := by
  cases b <;> rfl

theorem isNeutral_iff {t : String} : IsNeutral t ↔ t ∉ ["(", ")", "[", "]"] := by
  constructor
  · intro h ht
    obtain ⟨hor, hcr⟩ := h round
    obtain ⟨hos, hcs⟩ := h square
    simp only [opens, closes, Bool.or_eq_false_iff, beq_eq_false_iff_ne] at hor hcr hos hcs
    simp only [List.mem_cons, List.not_mem_nil, or_false] at ht
    rcases ht with ht | ht | ht | ht
    · exact hor ht
    · exact hcr ht
    · exact hos.2 ht
    · exact hcs.2 ht
  · intro h b
    simp only [List.mem_cons, List.not_mem_nil, or_false, not_or] at h
    obtain ⟨h₁, h₂, h₃, h₄⟩ := h
    cases b <;> simp [opens, closes, h₁, h₂, h₃, h₄]

/-! ## one token -/

theorem depthAfter_of_opens {t : String} (h : b.opens t = true) (depth : Nat) :
    b.depthAfter depth t = some (depth + 1) := by
  unfold depthAfter
  rw [if_pos h]

theorem depthAfter_zero_of_closes {t : String} (h : b.closes t = true) :
    b.depthAfter 0 t = none := by
  unfold depthAfter
  rw [if_neg (by rw [not_opens_of_closes h]; decide), if_pos h]

theorem depthAfter_succ_of_closes {t : String} (h : b.closes t = true) (depth : Nat) :
    b.depthAfter (depth + 1) t = some depth := by
  unfold depthAfter
  rw [if_neg (by rw [not_opens_of_closes h]; decide), if_pos h]

theorem depthAfter_eq_none {depth : Nat} {t : String} :
    b.depthAfter depth t = none ↔ depth = 0 ∧ b.closes t = true := by
  constructor
  · intro h
    unfold depthAfter at h
    split at h
    · exact absurd h (by simp)
    · split at h
      · next hc =>
        cases depth with
        | zero => exact ⟨rfl, hc⟩
        | succ depth => exact absurd h (by simp)
      · exact absurd h (by simp)
  · rintro ⟨rfl, h⟩
    exact depthAfter_zero_of_closes h

theorem depthAfter_add {depth d : Nat} {t : String} (h : b.depthAfter depth t = some d) (k : Nat) :
    b.depthAfter (depth + k) t = some (d + k) := by
  unfold depthAfter at h ⊢
  split at h
  · next ho =>
    obtain rfl := Option.some.inj h
    rw [if_pos ho, Nat.add_right_comm]
  · next ho =>
    rw [if_neg ho]
    split at h
    · next hc =>
      rw [if_pos hc]
      cases depth with
      | zero => exact absurd h (by simp)
      | succ depth =>
        obtain rfl := Option.some.inj h
        rw [Nat.add_right_comm]
    · next hc =>
      obtain rfl := Option.some.inj h
      rw [if_neg hc]

/-! ## many tokens -/

/-- the depth after some tokens, or `none` if one of them closes the enclosing bracket -/
def depthOver (b : Bracket) : Nat → List String → Option Nat
  | depth, [] => some depth
  | depth, t :: ts => (b.depthAfter depth t).bind fun d => b.depthOver d ts

theorem depthOver_nil (b : Bracket) (depth : Nat) : b.depthOver depth [] = some depth := rfl

theorem depthOver_cons_of_some {depth d : Nat} {t : String} (h : b.depthAfter depth t = some d)
    (ts : List String) : b.depthOver depth (t :: ts) = b.depthOver d ts := by
  rw [depthOver, h, Option.bind_some]

theorem depthOver_cons_of_none {depth : Nat} {t : String} (h : b.depthAfter depth t = none)
    (ts : List String) : b.depthOver depth (t :: ts) = none := by
  rw [depthOver, h, Option.bind_none]

theorem depthOver_append (depth : Nat) (ts us : List String) :
    b.depthOver depth (ts ++ us) = (b.depthOver depth ts).bind fun d => b.depthOver d us := by
  induction ts generalizing depth with
  | nil => rfl
  | cons t ts ih =>
    rw [List.cons_append, depthOver, depthOver]
    cases b.depthAfter depth t with
    | none => rfl
    | some d => exact ih d

theorem depthOver_append_of_some {depth d : Nat} {ts : List String}
    (h : b.depthOver depth ts = some d) (us : List String) :
    b.depthOver depth (ts ++ us) = b.depthOver d us := by
  rw [depthOver_append, h, Option.bind_some]

theorem depthOver_add {depth d : Nat} {ts : List String} (h : b.depthOver depth ts = some d)
    (k : Nat) : b.depthOver (depth + k) ts = some (d + k) := by
  induction ts generalizing depth with
  | nil =>
    obtain rfl := Option.some.inj h
    rfl
  | cons t ts ih =>
    obtain ⟨d', hd, ht⟩ := Option.bind_eq_some_iff.mp h
    rw [depthOver_cons_of_some (depthAfter_add hd k)]
    exact ih ht

/-! ## what a bracket encloses -/

/-- the enclosed tokens come back to the depth of the bracket, and then a closer ends the scan -/
theorem enclosed_eq_some_iff {depth : Nat} {ts inner rest : List String} :
    b.enclosed depth ts = some (inner, rest) ↔
      ∃ t, b.closes t = true ∧ b.depthOver depth inner = some 0 ∧ ts = inner ++ t :: rest := by
  induction ts generalizing depth inner with
  | nil => simp [enclosed_nil]
  | cons t ts ih =>
    cases hd : b.depthAfter depth t with
    | none =>
      obtain ⟨rfl, hc⟩ := depthAfter_eq_none.mp hd
      rw [enclosed_cons_of_none hd]
      constructor
      · intro h
        obtain ⟨rfl, rfl⟩ := Prod.mk.inj (Option.some.inj h)
        exact ⟨t, hc, rfl, rfl⟩
      · rintro ⟨u, -, hover, heq⟩
        cases inner with
        | nil =>
          obtain ⟨rfl, rfl⟩ := List.cons.inj heq
          rfl
        | cons v vs =>
          obtain ⟨rfl, -⟩ := List.cons.inj heq
          rw [depthOver_cons_of_none hd] at hover
          exact absurd hover (by simp)
    | some d =>
      rw [enclosed_cons_of_some hd]
      constructor
      · intro h
        obtain ⟨⟨inner', rest'⟩, he, hp⟩ := Option.map_eq_some_iff.mp h
        obtain ⟨rfl, rfl⟩ := Prod.mk.inj hp
        obtain ⟨u, hc, hover, rfl⟩ := ih.mp he
        exact ⟨u, hc, (depthOver_cons_of_some hd inner').trans hover, rfl⟩
      · rintro ⟨u, hc, hover, heq⟩
        cases inner with
        | nil =>
          -- the closer would have ended the scan
          obtain ⟨rfl, rfl⟩ := List.cons.inj heq
          obtain rfl : depth = 0 := Option.some.inj hover
          rw [depthAfter_zero_of_closes hc] at hd
          exact absurd hd (by simp)
        | cons v vs =>
          obtain ⟨rfl, hts⟩ := List.cons.inj heq
          rw [depthOver_cons_of_some hd] at hover
          rw [ih.mpr ⟨u, hc, hover, hts⟩]
          rfl

/-- the partner is missing if all tokens leave the scan inside the bracket -/
theorem enclosed_eq_none_iff {depth : Nat} {ts : List String} :
    b.enclosed depth ts = none ↔ b.depthOver depth ts ≠ none := by
  induction ts generalizing depth with
  | nil => simp [enclosed_nil, depthOver_nil]
  | cons t ts ih =>
    cases hd : b.depthAfter depth t with
    | none => simp [enclosed_cons_of_none hd, depthOver_cons_of_none hd]
    | some d =>
      rw [enclosed_cons_of_some hd, depthOver_cons_of_some hd, Option.map_eq_none_iff]
      exact ih

end Bracket

/-- the check looks at what a bracket encloses, and then at what stands behind its partner -/
theorem unclosed?_pair {b : Bracket} {inner : List String} {t : String}
    (hd : b.depthOver 0 inner = some 0) (ht : b.closes t = true) (rest : List String) :
    unclosed? (b.opener :: (inner ++ t :: rest)) = (unclosed? inner).or (unclosed? rest) :=
  unclosed?_cons_of_paired b.ofOpener?_opener (Bracket.enclosed_eq_some_iff.mpr ⟨t, ht, hd, rfl⟩)

end Markup
