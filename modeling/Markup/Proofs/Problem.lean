import Markup.Problem

/-!
# What problems cost, by their messages

The message of a problem shows what the problem costs: it is fatal just if a bracket lacks its partner,
and no other message reads like that (`Problem.fatal_iff_message`).
-/

namespace Markup
namespace Problem

theorem fatal_iff {p : Problem} : p.severity = .fatal ↔ ∃ b, p = .unclosedBracket b := by
  cases p with
  | unclosedBracket b => exact ⟨fun _ => ⟨b, rfl⟩, fun _ => rfl⟩
  | _ => simp [severity]

theorem message_unclosed (b : Unclosed) : (unclosedBracket b).message = "Expected a matching ')'" ∨
    (unclosedBracket b).message = "Expected a matching ']'" := by
  obtain ⟨bracket, n⟩ := b
  cases bracket with
  | round => exact Or.inl (show "Expected a matching '" ++ ")" ++ "'" = _ by decide +kernel)
  | square => exact Or.inr (show "Expected a matching '" ++ "]" ++ "'" = _ by decide +kernel)

theorem append_ne {a t : String} (h : ¬a.toList <+: t.toList) (b : String) : a ++ b ≠ t := by
  rintro rfl
  rw [String.toList_append] at h
  exact h (List.prefix_append _ _)

theorem message_ne {p : Problem} (hp : p.severity = .error) {t : String}
    (ht : t = "Expected a matching ')'" ∨ t = "Expected a matching ']'") : p.message ≠ t := by
  have hopening : ∀ a, (¬a.toList <+: "Expected a matching ')'".toList ∧
      ¬a.toList <+: "Expected a matching ']'".toList) → ∀ b, a ++ b ≠ t := by
    rintro a ⟨h₁, h₂⟩
    rcases ht with rfl | rfl
    · exact append_ne h₁
    · exact append_ne h₂
  have hinvalid := hopening "Invalid name: " (by decide +kernel)
  have hbrace := hopening ("Expected a " ++ quoted blockOpen) (by decide +kernel)
  have hunexpected := hopening "Unexpected " (by decide +kernel)
  have hequals := hopening "Expected '=' after " (by decide +kernel)
  cases p with
  | unclosedBracket b => exact absurd hp (by simp [severity])
  | reservedName name =>
    show "Invalid name: " ++ quoted name ++ _ ≠ t
    rw [String.append_assoc]
    exact hinvalid _
  | elementWithoutBlock name =>
    show "Expected a " ++ quoted blockOpen ++ " after " ++ _ ≠ t
    rw [String.append_assoc]
    exact hbrace _
  | afterConstant token =>
    show "Unexpected " ++ quoted token ++ _ ≠ t
    rw [String.append_assoc]
    exact hunexpected _
  | unexpected token => exact hunexpected _
  | afterVariable name token =>
    show "Unexpected " ++ quoted token ++ " after variable " ++ quoted name ++ _ ≠ t
    rw [String.append_assoc, String.append_assoc, String.append_assoc]
    exact hunexpected _
  | propertyWithoutValue name => exact hequals _
  | afterProperty name token =>
    show "Expected '=' after " ++ quoted name ++ ", got " ++ _ ≠ t
    rw [String.append_assoc, String.append_assoc]
    exact hequals _
  | _ => rcases ht with rfl | rfl <;> decide +kernel

/-- a problem is fatal just if its message is one of the two for brackets -/
theorem fatal_iff_message {p : Problem} : p.severity = .fatal ↔
    p.message = "Expected a matching ')'" ∨ p.message = "Expected a matching ']'" := by
  constructor
  · intro h
    obtain ⟨b, rfl⟩ := fatal_iff.mp h
    exact message_unclosed b
  · intro h
    cases hs : p.severity with
    | fatal => rfl
    | error => exact absurd rfl (message_ne hs h)

end Problem
end Markup
