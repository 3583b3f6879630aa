import Markup.Json.Parse
import Markup.Text.Quoted

/-!
# Quoted texts can be told apart

What a quoted text was made of can be told from it, whatever is written behind it, and it takes no more
than its own row (`isPrefixCode_quotedText`, `newline_not_mem_quotedText`).  A character of it is read back, named
or not (`readQuotedChar_append`), and none begins like the closing quote.

* `IsPrefixCode`       texts that can be told apart with anything behind them;
* `readQuotedChar`    the character that a quoted text begins with.
-/

namespace Markup

/-! ## prefix codes -/

/-- no text of `f` with something behind it can be taken for another one -/
def IsPrefixCode {α : Type} (f : α → List Char) : Prop :=
  ∀ ⦃a b : α⦄ ⦃xs ys : List Char⦄, f a ++ xs = f b ++ ys → a = b ∧ xs = ys

section
variable {α : Type} {f : α → List Char}

theorem isPrefixCode_of_read {read : List Char → Option (α × List Char)}
    (h : ∀ a xs, read (f a ++ xs) = some (a, xs)) : IsPrefixCode f := by
  intro a b xs ys he
  have hread := congrArg read he
  rw [h, h] at hread
  exact Prod.mk.inj (Option.some.inj hread)

theorem IsPrefixCode.behind (h : IsPrefixCode f) (cs : List Char) :
    IsPrefixCode fun a => cs ++ f a := by
  intro a b xs ys he
  rw [List.append_assoc, List.append_assoc] at he
  exact h (List.append_cancel_left he)

/-- texts one after the other, up to a character with which none of them begins -/
theorem IsPrefixCode.terminated (h : IsPrefixCode f) {q : Char}
    (hq : ∀ a xs ys, f a ++ xs ≠ q :: ys) : IsPrefixCode fun as : List α => as.flatMap f ++ [q] := by
  intro as bs xs ys he
  replace he : as.flatMap f ++ q :: xs = bs.flatMap f ++ q :: ys := by simpa using he
  induction as generalizing bs with
  | nil =>
    cases bs with
    | nil => exact ⟨rfl, List.tail_eq_of_cons_eq he⟩
    | cons b bs =>
      rw [List.flatMap_cons, List.append_assoc] at he
      exact absurd he.symm (hq b _ _)
  | cons a as ih =>
    rw [List.flatMap_cons, List.append_assoc] at he
    cases bs with
    | nil => exact absurd he (hq a _ _)
    | cons b bs =>
      rw [List.flatMap_cons, List.append_assoc] at he
      obtain ⟨rfl, hrest⟩ := h he
      obtain ⟨rfl, hxs⟩ := ih hrest
      exact ⟨rfl, hxs⟩

/-- texts that are told apart as a whole, up to a character that is in none of them -/
theorem isPrefixCode_of_not_mem (hf : Function.Injective f) {q : Char} (hq : ∀ a, q ∉ f a) :
    IsPrefixCode fun a => f a ++ [q] := by
  intro a b xs ys he
  have hread : ∀ a xs, (f a ++ [q] ++ xs).takeWhile (· != q) = f a := by
    intro a xs
    have hne : ∀ c ∈ f a, (c != q) = true := fun c hc => bne_iff_ne.mpr fun h => hq a (h ▸ hc)
    rw [List.append_assoc, List.takeWhile_append_of_pos hne, List.singleton_append,
      List.takeWhile_cons_of_neg (by simp), List.append_nil]
  have heq : f a = f b := by rw [← hread a xs, he, hread]
  obtain rfl := hf heq
  exact ⟨rfl, List.append_cancel_left he⟩

end

/-! ## digits of base sixteen -/

/-- the number that some digits of base sixteen stand for -/
def hexNumber (digits : List Char) : Nat :=
  digits.foldl (fun n c => n * 16 + (Json.hexValue? c).getD 0) 0

theorem hexNumber_concat (digits : List Char) (c : Char) :
    hexNumber (digits ++ [c]) = hexNumber digits * 16 + (Json.hexValue? c).getD 0 := by
  rw [hexNumber, List.foldl_append]
  rfl

theorem hexNumber_toDigits (n : Nat) : hexNumber (Nat.toDigits 16 n) = n := by
  have hvalue : ∀ m < 16, (Json.hexValue? m.digitChar).getD 0 = m := by decide
  induction n using Nat.strongRecOn with
  | ind n ih =>
    by_cases hn : n < 16
    · rw [Nat.toDigits_of_lt_base hn]
      exact (Nat.zero_add _).trans (hvalue n hn)
    · rw [Nat.toDigits_of_base_le (by decide) (Nat.le_of_not_lt hn), hexNumber_concat, ih _ (by omega),
        hvalue _ (Nat.mod_lt n (by decide))]
      exact Nat.div_add_mod' n 16

theorem exists_of_mem_toDigits {n : Nat} {c : Char} (h : c ∈ Nat.toDigits 16 n) :
    ∃ m < 16, c = m.digitChar := by
  induction n using Nat.strongRecOn with
  | ind n ih =>
    by_cases hn : n < 16
    · rw [Nat.toDigits_of_lt_base hn] at h
      exact ⟨n, hn, List.mem_singleton.mp h⟩
    · rw [Nat.toDigits_of_base_le (by decide) (Nat.le_of_not_lt hn)] at h
      rcases List.mem_append.mp h with h | h
      · exact ih _ (by omega) h
      · exact ⟨n % 16, Nat.mod_lt n (by decide), List.mem_singleton.mp h⟩

theorem ne_of_mem_toDigits {n : Nat} {c : Char} (h : c ∈ Nat.toDigits 16 n) : c ≠ '}' ∧ c ≠ '\n' := by
  have hall : ∀ m < 16, Nat.digitChar m ≠ '}' ∧ Nat.digitChar m ≠ '\n' := by decide
  obtain ⟨m, hm, rfl⟩ := exists_of_mem_toDigits h
  exact hall m hm

/-! ## characters -/

/-- the character that a letter behind a backslash stands for -/
def escapedChar (c : Char) : Char :=
  if c = 'n' then '\n' else if c = 'r' then '\r' else if c = 't' then '\t'
  else if c = '0' then '\x00' else c

/-- the character that a quoted text begins with, and what stands behind it; none at a quote -/
def readQuotedChar : List Char → Option (Char × List Char)
  | [] => none
  | c :: cs =>
    if c = '"' then none
    else if c = '\\' then
      match cs with
      | 'u' :: _ :: cs =>
        some (Char.ofNat (hexNumber (cs.takeWhile (· != '}'))), (cs.dropWhile (· != '}')).tail)
      | c :: cs => some (escapedChar c, cs)
      | [] => none
    else some (c, cs)

theorem readQuotedChar_named (c : Char) (cs : List Char) :
    readQuotedChar (namedChar c ++ cs) = some (c, cs) := by
  have hne : ∀ d ∈ Nat.toDigits 16 c.toNat, (d != '}') = true := fun d hd =>
    bne_iff_ne.mpr (ne_of_mem_toDigits hd).1
  have hlast : ¬('}' != '}') = true := by decide
  have hdigits : namedChar c ++ cs =
      '\\' :: 'u' :: '\x7b' :: (Nat.toDigits 16 c.toNat ++ '}' :: cs) := by
    rw [namedChar]
    simp
  rw [hdigits]
  show some (Char.ofNat (hexNumber ((Nat.toDigits 16 c.toNat ++ '}' :: cs).takeWhile (· != '}'))),
    ((Nat.toDigits 16 c.toNat ++ '}' :: cs).dropWhile (· != '}')).tail) = _
  rw [List.takeWhile_append_of_pos hne, List.dropWhile_append_of_pos hne, List.takeWhile_cons,
    List.dropWhile_cons, if_neg hlast, if_neg hlast, List.append_nil, hexNumber_toDigits,
    Char.ofNat_toNat]
  rfl

/-- a character is read back from a quoted text -/
theorem readQuotedChar_append (c : Char) (cs : List Char) :
    readQuotedChar (quotedChar c ++ cs) = some (c, cs) := by
  unfold quotedChar
  by_cases hq : c = '"'
  · rw [if_pos hq, hq]
    rfl
  by_cases hb : c = '\\'
  · rw [if_neg hq, if_pos hb, hb]
    rfl
  by_cases hn : c = '\n'
  · rw [if_neg hq, if_neg hb, if_pos hn, hn]
    rfl
  by_cases hr : c = '\r'
  · rw [if_neg hq, if_neg hb, if_neg hn, if_pos hr, hr]
    rfl
  by_cases ht : c = '\t'
  · rw [if_neg hq, if_neg hb, if_neg hn, if_neg hr, if_pos ht, ht]
    rfl
  -- a zero is told by its code, as in the text
  rw [if_neg hq, if_neg hb, if_neg hn, if_neg hr, if_neg ht]
  by_cases h0 : c.toNat = 0
  · have hc : c = '\x00' := by rw [← Char.ofNat_toNat c, h0]
    rw [if_pos h0, hc]
    rfl
  rw [if_neg h0]
  split
  · exact readQuotedChar_named c cs
  · show readQuotedChar (c :: cs) = some (c, cs)
    rw [readQuotedChar.eq_def]
    simp only [if_neg hq, if_neg hb]

theorem isPrefixCode_quotedChar : IsPrefixCode quotedChar :=
  isPrefixCode_of_read readQuotedChar_append

theorem quotedChar_append_ne (c : Char) (xs ys : List Char) : quotedChar c ++ xs ≠ '"' :: ys := by
  intro h
  have hread := readQuotedChar_append c xs
  rw [h] at hread
  exact absurd hread nofun

theorem newline_not_mem_namedChar (c : Char) : '\n' ∉ namedChar c := by
  intro h
  rcases List.mem_append.mp h with h | h
  · have hd : '\n' ∈ Nat.toDigits 16 c.toNat := by simpa using h
    exact (ne_of_mem_toDigits hd).2 rfl
  · exact absurd h (by decide)

theorem newline_not_mem_quotedChar (c : Char) : '\n' ∉ quotedChar c := by
  by_cases hn : c = '\n'
  · rw [hn]
    decide
  · unfold quotedChar
    rw [if_neg hn]
    repeat' split
    · decide
    · decide
    · decide
    · decide
    · decide
    · exact newline_not_mem_namedChar c
    · exact fun h => hn (List.mem_singleton.mp h).symm

/-! ## texts -/

theorem toList_quotedText (s : String) :
    (quotedText s).toList = ['"'] ++ (s.toList.flatMap quotedChar ++ ['"']) := by
  rw [quotedText, String.toList_ofList]
  rfl

/-- texts are told apart by their quoted forms, with anything behind them -/
theorem isPrefixCode_quotedText : IsPrefixCode fun s => (quotedText s).toList := by
  intro s t xs ys h
  simp only [toList_quotedText] at h
  obtain ⟨hst, hxs⟩ :=
    (isPrefixCode_quotedChar.terminated quotedChar_append_ne).behind ['"'] h
  exact ⟨String.toList_inj.mp hst, hxs⟩

theorem newline_not_mem_quotedText (s : String) : '\n' ∉ (quotedText s).toList := by
  rw [toList_quotedText]
  simp only [List.mem_append, List.mem_flatMap, not_or, not_exists, not_and]
  exact ⟨by decide, fun c _ => newline_not_mem_quotedChar c, by decide⟩

end Markup
