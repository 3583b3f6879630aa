import Markup.Token

/-!
# The kinds of tokens

A token that is no brace is of one of four kinds:

* `IsWord`             a run of characters that have no role of their own;
* `IsOperatorToken`    one operator character;
* `IsQuotation`        a string with its two quotes;
* `IsOpenQuotation`    a string without a second quote.

`IsValueToken` are the first three, which can stand anywhere in a line; `IsTextToken` are all four.
None of them is empty or a brace.
-/

namespace Markup

/-! ## the kinds -/

/-- a token of characters that have no role of their own -/
def IsWord (t : String) : Prop := t.toList ≠ [] ∧ ∀ c ∈ t.toList, CharClass.of c = .word

instance (t : String) : Decidable (IsWord t) :=
  decidable_of_iff ((!t.toList.isEmpty && t.toList.all (CharClass.of · == .word)) = true) <| by
    rw [IsWord, Bool.and_eq_true, Bool.not_eq_true', List.isEmpty_eq_false_iff, List.all_eq_true]
    simp only [beq_iff_eq]

/-- a token of one operator character -/
def IsOperatorToken (t : String) : Prop := ∃ c, CharClass.of c = .operator ∧ t = String.singleton c

/-- a string with its quotes; anything but a quote can stand between them -/
def IsQuotation (t : String) : Prop := ∃ body, '"' ∉ body ∧ t.toList = '"' :: body ++ ['"']

/-- a string that has no second quote -/
def IsOpenQuotation (t : String) : Prop := ∃ body, '"' ∉ body ∧ t.toList = '"' :: body

/-- a token that can stand in a value, at any place -/
inductive IsValueToken (t : String) : Prop
  | word (h : IsWord t)
  | operator (h : IsOperatorToken t)
  | quotation (h : IsQuotation t)

/-- a token that is no brace -/
def IsTextToken (t : String) : Prop := IsValueToken t ∨ IsOpenQuotation t

theorem IsValueToken.isTextToken {t : String} (h : IsValueToken t) : IsTextToken t := Or.inl h

/-! ## closed strings -/

theorem isDelimited_iff {first last : Char} {t : String} :
    isDelimited first last t = true ↔ ∃ body, t.toList = first :: body ++ [last] := by
  unfold isDelimited
  constructor
  · intro h
    split at h
    · next c d rest hl =>
      rw [Bool.and_eq_true, beq_iff_eq, beq_iff_eq] at h
      obtain ⟨rfl, hlast⟩ := h
      obtain ⟨body, hbody⟩ := List.getLast?_eq_some_iff.mp hlast
      exact ⟨body, by rw [hl, hbody, List.cons_append]⟩
    · exact absurd h (by decide)
  · rintro ⟨body, hl⟩
    rw [hl]
    cases body with
    | nil => simp
    | cons d rest =>
      show (first == first && (d :: rest ++ [last]).getLast? == some last) = true
      rw [List.getLast?_concat, beq_self_eq_true, beq_self_eq_true]
      rfl

/-- of the tokens that are no braces, those that begin and end with a quote have no other quote -/
theorem isClosedString_iff {t : String} (h : IsTextToken t) :
    isClosedString t = true ↔ IsQuotation t := by
  rw [isClosedString, isDelimited_iff]
  refine ⟨?_, fun ⟨body, _, hl⟩ => ⟨body, hl⟩⟩
  rintro ⟨body, hl⟩
  rcases h with (⟨-, hword⟩ | ⟨c, -, rfl⟩ | hq) | ⟨inside, hno, hopen⟩
  · have hquote := hword '"' (by rw [hl]; exact List.mem_cons_self)
    exact absurd hquote (by decide)
  · -- an operator has no room for two quotes
    have hlen := congrArg List.length hl
    simp at hlen
  · exact hq
  · -- the string would have a second quote
    rw [hopen, List.cons_append] at hl
    obtain ⟨-, rfl⟩ := List.cons.inj hl
    exact absurd (List.mem_append_right _ List.mem_cons_self) hno

/-! ## how a token begins -/

theorem IsTextToken.head_class {t : String} (h : IsTextToken t) :
    ∃ c cs, t.toList = c :: cs ∧ CharClass.of c ≠ .opener ∧ CharClass.of c ≠ .closer := by
  rcases h with (⟨hne, hw⟩ | ⟨c, hc, rfl⟩ | ⟨body, _, hb⟩) | ⟨body, _, hb⟩
  · obtain ⟨c, cs, hcs⟩ := List.exists_cons_of_ne_nil hne
    have hc : CharClass.of c = .word := hw c (by rw [hcs]; exact List.mem_cons_self)
    exact ⟨c, cs, hcs, by rw [hc]; decide, by rw [hc]; decide⟩
  · exact ⟨c, [], String.toList_singleton c, by rw [hc]; decide, by rw [hc]; decide⟩
  · exact ⟨'"', body ++ ['"'], hb, by decide, by decide⟩
  · exact ⟨'"', body, hb, by decide, by decide⟩

theorem IsTextToken.ne_empty {t : String} (h : IsTextToken t) : t ≠ "" := by
  obtain ⟨c, cs, hcs, _, _⟩ := h.head_class
  rintro rfl
  rw [String.toList_empty] at hcs
  exact absurd hcs (by simp)

theorem IsTextToken.ne_blockOpen {t : String} (h : IsTextToken t) : t ≠ blockOpen := by
  obtain ⟨c, cs, hcs, ho, _⟩ := h.head_class
  rintro rfl
  obtain ⟨rfl, _⟩ := List.cons.inj (hcs.symm.trans (show blockOpen.toList = ['\x7b'] by decide))
  exact ho rfl

theorem IsTextToken.ne_blockClose {t : String} (h : IsTextToken t) : t ≠ blockClose := by
  obtain ⟨c, cs, hcs, _, hc⟩ := h.head_class
  rintro rfl
  obtain ⟨rfl, _⟩ := List.cons.inj (hcs.symm.trans (show blockClose.toList = ['\x7d'] by decide))
  exact hc rfl

theorem IsWord.isTextToken {w : String} (h : IsWord w) : IsTextToken w :=
  (IsValueToken.word h).isTextToken

/-- a word is no missing token, and no header ends with it -/
theorem IsWord.not_missing {w : String} (h : IsWord w) : ¬(w = "" ∨ w = blockOpen) :=
  not_or.mpr ⟨h.isTextToken.ne_empty, h.isTextToken.ne_blockOpen⟩

end Markup
