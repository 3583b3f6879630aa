import Markup.Command.Run
import Markup.Proofs.Text.Quoted

/-!
# Listings of lines are faithful

The lines of a source are shown in a row each, and whatever stands in their tokens, they can be told
from the rows (`CommandLine.answer_lines`): the number of a line ends at a blank, a token at its closing
quote, and a row at a newline, which no token has in its quoted form.

* `isPrefixCode_padded`    numbers with blanks in front;
* `isPrefixCode_spaced`    the tokens of a row, up to its end;
* `isPrefixCode_row`       rows.
-/

namespace Markup

/-! ## numbers -/

theorem toList_padded (n : Nat) : (padded n).toList =
    List.replicate (4 - (toString n).length) ' ' ++ Nat.toDigits 10 n := by
  rw [padded, String.toList_append, String.toList_ofList, Nat.toString_eq_repr, Nat.toList_repr]

theorem ne_of_mem_decimal {n : Nat} {c : Char} (h : c ∈ Nat.toDigits 10 n) : c ≠ ' ' ∧ c ≠ '\n' := by
  have hc := Nat.isDigit_of_mem_toDigits (by decide) (by decide) h
  constructor <;> (rintro rfl; exact absurd hc (by decide))

theorem decimal_injective : Function.Injective (Nat.toDigits 10) := by
  intro n m h
  rw [← Nat.ofDigitChars_ten_toDigits (n := n), h, Nat.ofDigitChars_ten_toDigits]

theorem isPrefixCode_padded : IsPrefixCode fun n => (padded n).toList ++ [' '] := by
  -- how many blanks stand in front does not matter, for no digit is one
  have hdigits : ∀ n xs, ((padded n).toList ++ [' '] ++ xs).dropWhile (· == ' ') =
      Nat.toDigits 10 n ++ [' '] ++ xs := by
    intro n xs
    have hblank : ∀ c ∈ List.replicate (4 - (toString n).length) ' ', (c == ' ') = true :=
      fun c hc => beq_iff_eq.mpr (List.eq_of_mem_replicate hc)
    obtain ⟨d, ds, hd⟩ := List.exists_cons_of_ne_nil (Nat.toDigits_ne_nil (n := n) (b := 10))
    have hne : ¬(d == ' ') = true := fun h =>
      (ne_of_mem_decimal (hd ▸ List.mem_cons_self)).1 (beq_iff_eq.mp h)
    rw [toList_padded, List.append_assoc, List.append_assoc, List.dropWhile_append_of_pos hblank, hd,
      List.cons_append, List.dropWhile_cons, if_neg hne]
    simp
  intro n m xs ys h
  have hread := congrArg (List.dropWhile (· == ' ')) h
  rw [hdigits, hdigits] at hread
  exact isPrefixCode_of_not_mem decimal_injective (fun n h => (ne_of_mem_decimal h).1 rfl) hread

/-! ## tokens -/

theorem toList_spaced_cons (t : String) (ts : List String) :
    (spaced (t :: ts)).toList = t.toList ++ ts.flatMap fun u => [' '] ++ u.toList := by
  induction ts generalizing t with
  | nil => simp [spaced_singleton]
  | cons u ts ih =>
    rw [spaced_cons_cons, String.toList_append, String.toList_append, ih, List.flatMap_cons,
      List.append_assoc, List.append_assoc]
    rfl

theorem isPrefixCode_spaced :
    IsPrefixCode fun ts : List String => (spaced (ts.map quotedText)).toList ++ ['\n'] := by
  -- behind the first token each one has a blank in front of it
  have hnext : IsPrefixCode fun ts : List String =>
      ts.flatMap (fun t => [' '] ++ (quotedText t).toList) ++ ['\n'] := by
    refine (isPrefixCode_quotedText.behind [' ']).terminated fun t xs ys h => ?_
    exact absurd (List.head_eq_of_cons_eq h) (by decide)
  have hcons : ∀ t ts xs, (spaced ((t :: ts).map quotedText)).toList ++ ['\n'] ++ xs =
      (quotedText t).toList ++ (ts.flatMap (fun t => [' '] ++ (quotedText t).toList) ++ ['\n'] ++ xs) := by
    intro t ts xs
    rw [List.map_cons, toList_spaced_cons, List.flatMap_map]
    simp
  have hnil : ∀ xs, (spaced (([] : List String).map quotedText)).toList ++ ['\n'] ++ xs = '\n' :: xs :=
    fun _ => rfl
  have hquote : ∀ t xs ys, (quotedText t).toList ++ xs ≠ '\n' :: ys := by
    intro t xs ys h
    rw [toList_quotedText, List.append_assoc, List.singleton_append] at h
    exact absurd (List.head_eq_of_cons_eq h) (by decide)
  intro ts us xs ys h
  cases ts with
  | nil =>
    cases us with
    | nil =>
      simp only [hnil] at h
      exact ⟨rfl, List.tail_eq_of_cons_eq h⟩
    | cons u us =>
      simp only [hnil, hcons] at h
      exact absurd h.symm (hquote u _ xs)
  | cons t ts =>
    cases us with
    | nil =>
      simp only [hnil, hcons] at h
      exact absurd h (hquote t _ ys)
    | cons u us =>
      simp only [hcons] at h
      obtain ⟨rfl, hrest⟩ := isPrefixCode_quotedText (a := t) (b := u) h
      obtain ⟨rfl, hxs⟩ := hnext hrest
      exact ⟨rfl, hxs⟩

theorem newline_not_mem_spaced (ts : List String) :
    '\n' ∉ (spaced (ts.map quotedText)).toList := by
  cases ts with
  | nil => exact List.not_mem_nil
  | cons t ts =>
    rw [List.map_cons, toList_spaced_cons, List.flatMap_map]
    simp only [List.mem_append, List.mem_flatMap, List.mem_singleton, not_or, not_exists, not_and]
    exact ⟨newline_not_mem_quotedText t, fun u _ => ⟨by decide, newline_not_mem_quotedText u⟩⟩

/-! ## rows -/

theorem toList_row (i : Nat) (line : Line) : (line.row i).toList =
    ((padded i).toList ++ [' ']) ++ (((padded line.number).toList ++ [' ']) ++
      (['|', ' '] ++ (spaced (line.tokens.map quotedText)).toList)) := by
  simp [Line.row]

theorem isPrefixCode_row (i : Nat) :
    IsPrefixCode fun line : Line => (line.row i).toList ++ ['\n'] := by
  have hrow : ∀ (line : Line) xs, (line.row i).toList ++ ['\n'] ++ xs =
      ((padded i).toList ++ [' ']) ++ ((padded line.number).toList ++ [' '] ++
        (['|', ' '] ++ ((spaced (line.tokens.map quotedText)).toList ++ ['\n'] ++ xs))) := by
    intro line xs
    simp [toList_row]
  intro line line' xs ys h
  obtain ⟨tokens, n⟩ := line
  obtain ⟨tokens', n'⟩ := line'
  simp only [hrow] at h
  obtain ⟨rfl, htokens⟩ := isPrefixCode_padded (List.append_cancel_left h)
  obtain ⟨rfl, hxs⟩ := isPrefixCode_spaced (List.append_cancel_left htokens)
  exact ⟨rfl, hxs⟩

theorem newline_not_mem_row (i : Nat) (line : Line) : '\n' ∉ (line.row i).toList := by
  have hpadded : ∀ n, '\n' ∉ (padded n).toList := by
    intro n h
    rw [toList_padded] at h
    rcases List.mem_append.mp h with h | h
    · exact absurd (List.eq_of_mem_replicate h) (by decide)
    · exact (ne_of_mem_decimal h).2 rfl
  rw [toList_row]
  simp only [List.mem_append, not_or]
  exact ⟨⟨hpadded i, by decide⟩, ⟨hpadded line.number, by decide⟩, by decide,
    newline_not_mem_spaced line.tokens⟩

theorem toList_rows_cons (t : String) (ts : List String) :
    (rows (t :: ts)).toList = t.toList ++ ['\n'] ++ (rows ts).toList := by
  rw [← List.singleton_append, rows_append, String.toList_append]
  simp [rows, String.join]

theorem rows_cons_ne (t : String) (ts : List String) : rows (t :: ts) ≠ rows [] := by
  intro h
  have hlen := congrArg (List.length ∘ String.toList) h
  simp only [Function.comp_apply, toList_rows_cons, List.length_append, List.length_singleton] at hlen
  have hzero : (rows []).toList.length = 0 := rfl
  omega

/-- lines are told from their rows, from whatever place on -/
theorem lines_of_rows {i : Nat} {lines lines' : List Line}
    (h : rows ((lines.zipIdx i).map fun (line, index) => line.row index) =
      rows ((lines'.zipIdx i).map fun (line, index) => line.row index)) : lines = lines' := by
  induction lines generalizing i lines' with
  | nil =>
    cases lines' with
    | nil => rfl
    | cons line' lines' => exact absurd h.symm (rows_cons_ne _ _)
  | cons line lines ih =>
    cases lines' with
    | nil => exact absurd h (rows_cons_ne _ _)
    | cons line' lines' =>
      have h := congrArg String.toList h
      rw [List.zipIdx_cons, List.zipIdx_cons, List.map_cons, List.map_cons, toList_rows_cons,
        toList_rows_cons] at h
      obtain ⟨rfl, hrest⟩ := isPrefixCode_row i h
      rw [ih (String.toList_inj.mp hrest)]

/-! ## the answer -/

/-- a text in UTF-8 is read back -/
theorem sourceText_of_utf8 {targets : String → PathTarget} {path source : String}
    (h : targets path = .file source.toUTF8) : sourceText targets path = .ok source := by
  have hread : String.fromUTF8? source.toUTF8 = some source := dif_pos source.isValidUTF8
  rw [sourceText, h]
  simp only [hread]

theorem stdout_lines {targets : String → PathTarget} {path source : String}
    (h : sourceText targets path = .ok source) (options : Options) :
    let a := (CommandLine.run (.lines path false) options).answer targets
    a.exit = 0 ∧ a.stdout = Line.listing (Line.ofSource source) := by
  unfold CommandLine.answer
  simp only [Action.answer, h]
  exact ⟨rfl, rfl⟩

/-- The lines of a source are listed in a row each, and no row is broken, whatever stands in the tokens.
Two sources with the same listing have the same lines. -/
theorem CommandLine.answer_lines {targets targets' : String → PathTarget}
    {path path' source source' : String} (h : sourceText targets path = .ok source)
    (h' : sourceText targets' path' = .ok source') (options options' : Options) :
    let a := (run (.lines path false) options).answer targets
    let a' := (run (.lines path' false) options').answer targets'
    a.exit = 0 ∧
      (∃ texts, a.stdout = rows texts ∧ texts.length = (Line.ofSource source).length ∧
        ∀ t ∈ texts, '\n' ∉ t.toList) ∧
      (a.stdout = a'.stdout → Line.ofSource source = Line.ofSource source') := by
  intro a a'
  obtain ⟨hexit, hstdout⟩ := stdout_lines h options
  obtain ⟨-, hstdout'⟩ := stdout_lines h' options'
  refine ⟨hexit, ⟨_, hstdout, ?_, ?_⟩, fun heq => ?_⟩
  · rw [List.length_map, List.length_zipIdx]
  · intro t ht
    obtain ⟨⟨line, i⟩, -, rfl⟩ := List.mem_map.mp ht
    exact newline_not_mem_row i line
  · exact lines_of_rows (hstdout.symm.trans (heq.trans hstdout'))

/-- a string with a newline, a quote and what looks like a row in it; the two sources are laid out in
other ways -/
theorem CommandLine.answer_lines_menu :
    let source := "a = \"x\n   1    2 | \\\" b; c"
    let source' := " a=\"x\n   1    2 | \\\" b;c;;"
    let targets : String → PathTarget := fun path =>
      if path = "a.kml" then .file source.toUTF8
      else if path = "b.kml" then .file source'.toUTF8
      else .missing
    let a := (run (.lines "a.kml" false) {}).answer targets
    let a' := (run (.lines "b.kml" false) {}).answer targets
    sourceText targets "a.kml" = .ok source ∧ sourceText targets "b.kml" = .ok source' ∧
      a.exit = 0 ∧ a.stdout = a'.stdout ∧
      (∃ texts, a.stdout = rows texts ∧ texts.length = 2 ∧ ∀ t ∈ texts, '\n' ∉ t.toList) ∧
      Line.ofSource source = Line.ofSource source' := by
  intro source source' targets a a'
  have h : sourceText targets "a.kml" = .ok source := sourceText_of_utf8 rfl
  have h' : sourceText targets "b.kml" = .ok source' := sourceText_of_utf8 rfl
  have heq : a.stdout = a'.stdout := by decide +kernel
  have hlen : (Line.ofSource source).length = 2 := by decide +kernel
  obtain ⟨hexit, hrows, hlines⟩ := CommandLine.answer_lines h h' {} {}
  rw [hlen] at hrows
  exact ⟨h, h', hexit, heq, hrows, hlines heq⟩

end Markup
