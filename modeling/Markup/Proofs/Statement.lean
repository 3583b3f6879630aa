import Markup.Proofs.Bracket
import Markup.Proofs.Line.Scanned
import Markup.Statement

/-!
# What a statement tells of its line

`Statement.Reads` are the ways in which a line in the body of an element is taken: what was checked
on it, and the statement that it gives.  Every line is taken in one of these ways
(`Statement.reads_ofLine`).  In particular a line that declares a child ends in an opener just if the
child is not detached (`Statement.opens_of_child`).
-/

namespace Markup
namespace Statement

/-- a line in the body of a root or of a child, and its statement -/
inductive Reads (isRoot : Bool) (line : Line) : Statement → Prop
  | rejected (p : Problem) : Reads isRoot line (rejected p)
  | unclosed (b : Unclosed) : Reads isRoot line (unclosed b)
  | property (ho : line.first ≠ blockOpen) (hc : line.first ≠ "child") (hs : line.token 1 = "=")
      (hu : unclosed? (line.tokens.drop 2) = none) :
      Reads isRoot line
        (property line.first (spaced ((line.tokens.drop 2).takeWhile (· != blockOpen))))
  | initialised (hr : isRoot = true) (hf : line.first = "var")
      (hn : ¬(line.token 1 = "" ∨ line.token 1 = blockOpen)) (hs : line.token 2 = "=")
      (hu : unclosed? (line.tokens.drop 3) = none) :
      Reads isRoot line
        (declareVariable (line.token 1) (spaced ((line.tokens.drop 3).takeWhile (· != blockOpen))))
  | bare (hr : isRoot = true) (hf : line.first = "var")
      (hn : ¬(line.token 1 = "" ∨ line.token 1 = blockOpen))
      (hs : line.token 2 = "" ∨ line.token 2 = blockOpen) :
      Reads isRoot line (declareVariable (line.token 1) "")
  | nameless (detached : Bool) (hf : line.first = "child")
      (hn : ¬(line.token 1 = "" ∨ line.token 1 = blockOpen))
      (he : line.token 2 = if detached then "" else blockOpen) :
      Reads isRoot line (child (line.token 1) none detached)
  | named (detached : Bool) (hf : line.first = "child")
      (hn : ¬(line.token 1 = "" ∨ line.token 1 = blockOpen))
      (hm : ¬(line.token 2 = "" ∨ line.token 2 = blockOpen))
      (he : line.token 3 = if detached then "" else blockOpen) :
      Reads isRoot line (child (line.token 1) (some (line.token 2)) detached)

variable {isRoot : Bool} {line : Line}

theorem reads_withValue {n : Nat} {tokens : List String} {f : String → Statement}
    (h : unclosed? tokens = none →
      Reads isRoot line (f (spaced (tokens.takeWhile (· != blockOpen))))) :
    Reads isRoot line (withValue n tokens f) := by
  unfold withValue
  cases hc : requireClosed n tokens with
  | error b => exact .unclosed b
  | ok u => exact h (requireClosed_eq_ok.mp hc)

theorem reads_variableOfLine (hf : line.first = "var") :
    Reads isRoot line (variableOfLine isRoot line) := by
  unfold variableOfLine
  simp only
  by_cases hr : isRoot = true
  · have hr' : (!isRoot) ≠ true := by rw [hr]; exact Bool.false_ne_true
    rw [if_neg hr']
    by_cases hn : line.token 1 = "" ∨ line.token 1 = blockOpen
    · rw [if_pos hn]
      exact .rejected _
    · rw [if_neg hn]
      by_cases hs : line.token 2 = "="
      · rw [if_pos hs]
        exact reads_withValue fun hu => .initialised hr hf hn hs hu
      · rw [if_neg hs]
        by_cases hb : line.token 2 = "" ∨ line.token 2 = blockOpen
        · rw [if_pos hb]
          exact .bare hr hf hn hb
        · rw [if_neg hb]
          exact .rejected _
  · have hr' : (!isRoot) = true := by rw [Bool.eq_false_iff.mpr hr]; rfl
    rw [if_pos hr']
    exact .rejected _

theorem reads_childBefore {typeName : String} {name? : Option String} {token : String}
    (h : ∀ detached : Bool, (token = if detached then "" else blockOpen) →
      Reads isRoot line (child typeName name? detached)) :
    Reads isRoot line (childBefore typeName name? token) := by
  unfold childBefore
  by_cases ho : token = blockOpen
  · rw [if_pos ho]
    exact h false ho
  · rw [if_neg ho]
    by_cases he : token = ""
    · rw [if_pos he]
      exact h true he
    · rw [if_neg he]
      exact .rejected _

theorem reads_childOfLine (hf : line.first = "child") : Reads isRoot line (childOfLine line) := by
  unfold childOfLine
  simp only
  by_cases hn : line.token 1 = "" ∨ line.token 1 = blockOpen
  · rw [if_pos hn]
    exact .rejected _
  · rw [if_neg hn]
    by_cases hm : line.token 2 = "" ∨ line.token 2 = blockOpen
    · rw [if_pos hm]
      exact reads_childBefore fun detached he => .nameless detached hf hn he
    · rw [if_neg hm]
      exact reads_childBefore fun detached he => .named detached hf hn hm he

theorem reads_propertyOfLine (ho : line.first ≠ blockOpen) (hc : line.first ≠ "child") :
    Reads isRoot line (propertyOfLine line) := by
  unfold propertyOfLine
  simp only
  by_cases hs : line.token 1 = "="
  · rw [if_pos hs]
    exact reads_withValue fun hu => .property ho hc hs hu
  · rw [if_neg hs]
    split <;> exact .rejected _

theorem reads_ofLine (isRoot : Bool) (line : Line) : Reads isRoot line (ofLine isRoot line) := by
  unfold ofLine
  by_cases ho : line.first = blockOpen
  · rw [if_pos ho]
    exact .rejected _
  · rw [if_neg ho]
    by_cases hv : line.first = "var"
    · rw [if_pos hv]
      exact reads_variableOfLine hv
    · rw [if_neg hv]
      by_cases hc : line.first = "child"
      · rw [if_pos hc]
        exact reads_childOfLine hc
      · rw [if_neg hc]
        exact reads_propertyOfLine ho hc

/-! ## how statements begin -/

theorem first_of_property {name value : String} (h : ofLine isRoot line = property name value) :
    line.first ≠ blockOpen ∧ line.first ≠ "child" := by
  have hr := reads_ofLine isRoot line
  rw [h] at hr
  cases hr with
  | property ho hc _ _ => exact ⟨ho, hc⟩

theorem first_of_variable {name value : String}
    (h : ofLine isRoot line = declareVariable name value) : line.first = "var" := by
  have hr := reads_ofLine isRoot line
  rw [h] at hr
  cases hr with
  | initialised _ hf _ _ _ | bare _ hf _ _ => exact hf

/-! ## headers of children -/

variable {typeName : String} {name? : Option String} {detached : Bool}

/-- the token at which the header of a child ends, and no token before it is an opener -/
theorem exists_end_of_child (h : ofLine isRoot line = child typeName name? detached) :
    ∃ i, line.token i = (if detached then "" else blockOpen) ∧
      ∀ j < i, line.token j ≠ blockOpen := by
  have hfirst : line.first = "child" → line.token 0 ≠ blockOpen := by
    intro hf
    show line.first ≠ blockOpen
    rw [hf]; decide
  have hr := reads_ofLine isRoot line
  rw [h] at hr
  cases hr with
  | nameless _ hf hn he =>
    refine ⟨2, he, fun j hj => ?_⟩
    match j, hj with
    | 0, _ => exact hfirst hf
    | 1, _ => exact fun e => hn (Or.inr e)
  | named _ hf hn hm he =>
    refine ⟨3, he, fun j hj => ?_⟩
    match j, hj with
    | 0, _ => exact hfirst hf
    | 1, _ => exact fun e => hn (Or.inr e)
    | 2, _ => exact fun e => hm (Or.inr e)

/-- the header of a child opens its block, unless it is detached -/
theorem opens_of_child (hs : line.IsScanned)
    (h : ofLine isRoot line = child typeName name? detached) : line.opens = !detached := by
  obtain ⟨i, hi, hlt⟩ := exists_end_of_child h
  cases detached with
  | false => exact Line.opens_of_token_eq hi
  | true =>
    refine Bool.eq_false_iff.mpr fun ho => ?_
    obtain ⟨j, hj, he⟩ := Line.exists_token_of_opens ho
    have hle := hs.length_le_of_token_eq hi
    exact hlt j (by omega) he

end Statement
end Markup
