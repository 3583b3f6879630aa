import Markup.Bracket

/-!
# Brackets and the tokens behind them

A token that is no bracket has no part in a scan for a partner, so the bracket check of a line does
not depend on such a token at its end (`unclosed?_concat`).  The arguments of a round bracket are
found just if its partner is (`arguments_eq_none`).
-/

namespace Markup

namespace Bracket

variable {b : Bracket}

/-- no scan for a partner counts this token -/
def IsNeutral (t : String) : Prop := ∀ b : Bracket, b.opens t = false ∧ b.closes t = false

theorem IsNeutral.depthAfter {t : String} (h : IsNeutral t) (depth : Nat) :
    b.depthAfter depth t = some depth := by
  unfold Bracket.depthAfter
  rw [(h b).1, (h b).2]
  rfl

theorem IsNeutral.ofOpener? {t : String} (h : IsNeutral t) : Bracket.ofOpener? t = none := by
  obtain ⟨ho, _⟩ := h square
  simp only [opens, Bool.or_eq_false_iff, beq_eq_false_iff_ne] at ho
  rw [Bracket.ofOpener?, if_neg ho.1, if_neg ho.2]

theorem isNeutral_blockOpen : IsNeutral blockOpen := by
  intro b
  cases b <;> decide

theorem enclosed_append {depth : Nat} {ts inner rest : List String}
    (h : b.enclosed depth ts = some (inner, rest)) (us : List String) :
    b.enclosed depth (ts ++ us) = some (inner, rest ++ us) := by
  induction ts generalizing depth inner with
  | nil =>
    rw [enclosed_nil] at h
    exact absurd h (by simp)
  | cons t ts ih =>
    rw [List.cons_append]
    cases hd : b.depthAfter depth t with
    | none =>
      rw [enclosed_cons_of_none hd] at h ⊢
      obtain ⟨rfl, rfl⟩ := Prod.mk.inj (Option.some.inj h)
      rfl
    | some d =>
      rw [enclosed_cons_of_some hd] at h ⊢
      obtain ⟨⟨inner', rest'⟩, he, hp⟩ := Option.map_eq_some_iff.mp h
      obtain ⟨rfl, rfl⟩ := Prod.mk.inj hp
      rw [ih he]
      rfl

theorem enclosed_concat {t : String} (ht : IsNeutral t) {depth : Nat} {ts : List String}
    (h : b.enclosed depth ts = none) : b.enclosed depth (ts ++ [t]) = none := by
  induction ts generalizing depth with
  | nil =>
    rw [List.nil_append, enclosed_cons_of_some (ht.depthAfter depth)]
    rfl
  | cons u us ih =>
    rw [List.cons_append]
    cases hd : b.depthAfter depth u with
    | none =>
      rw [enclosed_cons_of_none hd] at h
      exact absurd h (by simp)
    | some d =>
      rw [enclosed_cons_of_some hd, Option.map_eq_none_iff] at h ⊢
      exact ih h

end Bracket

/-! ## the bracket check -/

section
variable {t : String} {b : Bracket}

theorem unclosed?_nil : unclosed? [] = none := by
  rw [unclosed?]

theorem unclosed?_cons_of_none (h : Bracket.ofOpener? t = none) (ts : List String) :
    unclosed? (t :: ts) = unclosed? ts := by
  rw [unclosed?]
  simp only [h]

theorem unclosed?_cons_of_unpaired (ho : Bracket.ofOpener? t = some b) {ts : List String}
    (he : b.enclosed 0 ts = none) : unclosed? (t :: ts) = some b := by
  rw [unclosed?]
  simp only [ho]
  split
  · rfl
  · next h => exact absurd (he.symm.trans h) (by simp)

theorem unclosed?_cons_of_paired (ho : Bracket.ofOpener? t = some b) {ts inner rest : List String}
    (he : b.enclosed 0 ts = some (inner, rest)) :
    unclosed? (t :: ts) = (unclosed? inner).or (unclosed? rest) := by
  rw [unclosed?]
  simp only [ho]
  split
  · next h => exact absurd (he.symm.trans h) (by simp)
  · next h =>
    obtain ⟨rfl, rfl⟩ := Prod.mk.inj (Option.some.inj (he.symm.trans h))
    cases unclosed? inner <;> rfl

theorem exists_enclosed (ho : Bracket.ofOpener? t = some b) {ts : List String}
    (h : unclosed? (t :: ts) = none) : ∃ inner rest, b.enclosed 0 ts = some (inner, rest) := by
  cases he : b.enclosed 0 ts with
  | none =>
    rw [unclosed?_cons_of_unpaired ho he] at h
    exact absurd h (by simp)
  | some p => exact ⟨p.1, p.2, rfl⟩

theorem unclosed?_concat (ht : Bracket.IsNeutral t) (ts : List String) :
    unclosed? (ts ++ [t]) = unclosed? ts := by
  match ts with
  | [] => rw [List.nil_append, unclosed?_cons_of_none ht.ofOpener?]
  | u :: us =>
    rw [List.cons_append]
    cases ho : Bracket.ofOpener? u with
    | none =>
      rw [unclosed?_cons_of_none ho, unclosed?_cons_of_none ho]
      exact unclosed?_concat ht us
    | some b =>
      cases he : b.enclosed 0 us with
      | none =>
        rw [unclosed?_cons_of_unpaired ho he,
          unclosed?_cons_of_unpaired ho (Bracket.enclosed_concat ht he)]
      | some p =>
        obtain ⟨inner, rest⟩ := p
        -- the token joins what stands behind the partner, and the enclosed tokens stay
        have hlen := Bracket.length_of_enclosed he
        rw [unclosed?_cons_of_paired ho he,
          unclosed?_cons_of_paired ho (Bracket.enclosed_append he [t]), unclosed?_concat ht rest]
termination_by ts.length
decreasing_by
  · exact Nat.lt_succ_self _
  · rw [List.length_cons]
    omega

end

theorem requireClosed_eq_ok {n : Nat} {tokens : List String} {u : Unit} :
    requireClosed n tokens = .ok u ↔ unclosed? tokens = none := by
  unfold requireClosed
  cases unclosed? tokens with
  | none => exact ⟨fun _ => rfl, fun _ => rfl⟩
  | some b => exact ⟨fun h => absurd h (by simp), fun h => absurd h (by simp)⟩

theorem line_of_requireClosed {n : Nat} {tokens : List String} {u : Unclosed}
    (h : requireClosed n tokens = .error u) : u.line = n := by
  unfold requireClosed at h
  cases hu : unclosed? tokens with
  | none =>
    rw [hu] at h
    exact absurd h (by simp)
  | some b =>
    rw [hu] at h
    rw [← Except.error.inj h]

/-! ## arguments -/

theorem argumentsFrom_eq_none {depth : Nat} {ts : List String} :
    argumentsFrom depth ts = none ↔ Bracket.round.enclosed depth ts = none := by
  induction ts generalizing depth with
  | nil => exact ⟨fun _ => rfl, fun _ => rfl⟩
  | cons t ts ih =>
    rw [argumentsFrom]
    cases hd : Bracket.round.depthAfter depth t with
    | none =>
      rw [Bracket.enclosed_cons_of_none hd]
      exact ⟨fun h => absurd h (by simp), fun h => absurd h (by simp)⟩
    | some d =>
      rw [Bracket.enclosed_cons_of_some hd, Option.map_eq_none_iff, ← ih]
      simp only
      split <;> exact Option.map_eq_none_iff

theorem arguments_eq_none {ts : List String} :
    arguments ts = none ↔ Bracket.round.enclosed 0 ts = none := by
  cases ts with
  | nil => exact ⟨fun _ => rfl, fun _ => rfl⟩
  | cons t ts =>
    rw [arguments]
    by_cases hc : t = ")"
    · have hd : Bracket.round.depthAfter 0 t = none := by rw [hc]; decide
      rw [if_pos hc, Bracket.enclosed_cons_of_none hd]
      exact ⟨fun h => absurd h (by simp), fun h => absurd h (by simp)⟩
    · rw [if_neg hc, Option.map_eq_none_iff, argumentsFrom_eq_none]
      by_cases hm : t = ","
      · have hd : Bracket.round.depthAfter 0 t = some 0 := by rw [hm]; decide
        rw [if_pos hm, Bracket.enclosed_cons_of_some hd, Option.map_eq_none_iff]
      · rw [if_neg hm]

end Markup
