import Markup.Listing
import Markup.Proofs.Bracket

/-!
# Every checked value has a shape

The scans that find the shape of a value fail only at an opener without a partner.  So the bracket
check of the tokens is all that a shape needs (`Shape.exists_ofText`), and a value that has a shape
is never listed as invalid (`shapeName_ne_invalid`).
-/

namespace Markup
namespace Shape

theorem ofOpener?_of_isIdentifier {t : String} (h : isIdentifier t = true) :
    Bracket.ofOpener? t = none := by
  have hr : t ≠ "(" := by
    rintro rfl
    exact absurd h (by decide +kernel)
  have hs : t ≠ "[" := by
    rintro rfl
    exact absurd h (by decide +kernel)
  rw [Bracket.ofOpener?, if_neg hr, if_neg hs]

theorem exists_arguments {ts : List String} (h : unclosed? ("(" :: ts) = none) :
    ∃ args rest, arguments ts = some (args, rest) := by
  obtain ⟨inner, rest, he⟩ := exists_enclosed (b := .round) rfl h
  cases ha : arguments ts with
  | none => exact absurd (he.symm.trans (arguments_eq_none.mp ha)) (by simp)
  | some p => exact ⟨p.1, p.2, rfl⟩

theorem exists_ofTokens {ts : List String} (h : unclosed? ts = none) :
    ∃ shape, ofTokens ts = .ok shape := by
  cases ts with
  | nil => exact ⟨.empty, rfl⟩
  | cons t ts =>
    unfold ofTokens
    simp only
    split
    · exact ⟨_, rfl⟩
    · by_cases ht : t = "("
      · rw [if_pos ht]
        rw [ht] at h
        obtain ⟨args, rest, ha⟩ := exists_arguments h
        rw [ha]
        cases rest <;> exact ⟨_, rfl⟩
      · rw [if_neg ht]
        by_cases hi : isIdentifier t = true
        · rw [if_pos hi]
          rw [unclosed?_cons_of_none (ofOpener?_of_isIdentifier hi)] at h
          cases ts with
          | nil => exact ⟨_, rfl⟩
          | cons u us =>
            simp only
            by_cases hu : u = "("
            · rw [if_pos hu]
              rw [hu] at h
              obtain ⟨args, rest, ha⟩ := exists_arguments h
              rw [ha]
              cases rest <;> exact ⟨_, rfl⟩
            · rw [if_neg hu]
              by_cases hs : u = "["
              · rw [if_pos hs]
                rw [hs] at h
                obtain ⟨inner, rest, he⟩ := exists_enclosed (b := .square) rfl h
                rw [he]
                cases rest <;> exact ⟨_, rfl⟩
              · rw [if_neg hs]
                exact ⟨_, rfl⟩
        · rw [if_neg hi]
          exact ⟨_, rfl⟩

theorem exists_ofText {text : String} (h : unclosed? (tokensOf text) = none) :
    ∃ shape, ofText text = .ok shape := by
  have hc : requireClosed 1 (tokensOf text) = .ok () := requireClosed_eq_ok.mpr h
  rw [ofText, hc]
  exact exists_ofTokens h

theorem kind_ne_invalid (shape : Shape) : shape.kind ≠ "invalid" := by
  cases shape <;> simp [kind]

end Shape

theorem shapeName_ne_invalid {value : String} (h : ∃ shape, Shape.ofText value = .ok shape) :
    shapeName value ≠ "invalid" := by
  obtain ⟨shape, hs⟩ := h
  rw [shapeName, hs]
  exact shape.kind_ne_invalid

end Markup
