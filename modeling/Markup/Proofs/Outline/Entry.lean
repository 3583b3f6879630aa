import Markup.Outline
import Markup.Proofs.Bracket

/-!
# What an entry tells of its line

`Entry.Reads` are the ways in which an outline takes a line: what was checked on it, and the entry
that it gives.  Every line is taken in one of these ways (`Entry.reads_ofLine`), so the entry of a
line is undone by cases.
-/

namespace Markup

namespace Entry

/-- a line at place `index`, with `depth` blocks open before it, and its entry -/
inductive Reads (catalog : Catalog) (file : String) (depth index : Nat) (line : Line) : Entry → Prop
  | inBlock (hd : depth ≠ 0) : Reads catalog file depth index line passed
  | rejected (hd : depth = 0) (p : Problem) : Reads catalog file depth index line (rejected p)
  | element (hd : depth = 0) (hf : line.first = "element")
      (hn : ¬(line.token 1 = "" ∨ line.token 1 = blockOpen))
      (hr : catalog.reserves (line.token 1) = false) (ho : line.token 2 = blockOpen) :
      Reads catalog file depth index line (element ⟨line.token 1, file, index, line.number⟩)
  | constant (hd : depth = 0) (hf : line.first = "const") (hn : line.token 1 ≠ "")
      (hs : line.token 2 = "=") (hu : unclosed? (line.tokens.drop 3) = none) :
      Reads catalog file depth index line
        (constant ⟨line.token 1, spaced ((line.tokens.drop 3).takeWhile (· != ""))⟩)
  | opener (hd : depth = 0) (he : line.first ≠ "element") (hc : line.first ≠ "const")
      (ho : line.opens = true) : Reads catalog file depth index line passed

variable (catalog : Catalog) (file : String) (index : Nat) (line : Line)

theorem reads_ofElementLine (hf : line.first = "element") :
    Reads catalog file 0 index line (ofElementLine catalog file index line) := by
  unfold ofElementLine
  simp only
  by_cases hn : line.token 1 = "" ∨ line.token 1 = blockOpen
  · rw [if_pos hn]
    exact .rejected rfl _
  · rw [if_neg hn]
    by_cases hr : catalog.reserves (line.token 1) = true
    · rw [if_pos hr]
      exact .rejected rfl _
    · rw [if_neg hr]
      by_cases ho : line.token 2 = blockOpen
      · rw [if_neg (not_not_intro ho)]
        exact .element rfl hf hn (Bool.eq_false_iff.mpr hr) ho
      · rw [if_pos ho]
        exact .rejected rfl _

theorem reads_ofConstantLine (hf : line.first = "const") :
    Reads catalog file 0 index line (ofConstantLine line) := by
  unfold ofConstantLine
  simp only
  by_cases hn : line.token 1 = ""
  · rw [if_pos hn]
    exact .rejected rfl _
  · rw [if_neg hn]
    by_cases h2 : line.token 2 = ""
    · rw [if_pos h2]
      exact .rejected rfl _
    · rw [if_neg h2]
      by_cases hs : line.token 2 = "="
      · rw [if_neg (not_not_intro hs)]
        cases hc : requireClosed line.number (line.tokens.drop 3) with
        | error b => exact .rejected rfl _
        | ok u => exact .constant rfl hf hn hs (requireClosed_eq_ok.mp hc)
      · rw [if_pos hs]
        exact .rejected rfl _

theorem reads_ofLine (depth : Nat) :
    Reads catalog file depth index line (ofLine catalog file depth index line) := by
  unfold ofLine
  by_cases hd : depth = 0
  · obtain rfl := hd
    rw [if_neg (not_not_intro rfl)]
    by_cases hf : line.first = "element"
    · rw [if_pos hf]
      exact reads_ofElementLine catalog file index line hf
    · rw [if_neg hf]
      by_cases hc : line.first = "const"
      · rw [if_pos hc]
        exact reads_ofConstantLine catalog file index line hc
      · rw [if_neg hc]
        by_cases ho : line.opens = true
        · rw [if_pos ho]
          exact .opener rfl hf hc ho
        · rw [if_neg ho]
          split <;> exact .rejected rfl _
  · rw [if_pos hd]
    exact .inBlock hd

end Entry
end Markup
