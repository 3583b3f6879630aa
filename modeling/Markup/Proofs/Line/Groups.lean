import Markup.Cursor
import Markup.Line.Groups
import Markup.Proofs.Bracket.Depth
import Markup.Proofs.Line.Scanned

/-!
# The groups of a line

A line is folded by a search for the partner of each `(`.  A cursor finds the same groups: it goes on
token by token, and behind a `(` it takes what the bracket encloses (`Line.folded_matches_pieces`).
The tokens of a folded line are the texts of the pieces that the cursor finds, and the tokens of the
line are the tokens that these were made of (`Cursor.flatMap_tokens_pieces`).  Folding a line once
more changes nothing (`Line.folded_folded`).

* `Piece`                what becomes one token of a folded line;
* `Cursor.pieces`        the pieces that a cursor finds up to the end of its line;
* `groups_induction`     tokens one by one, and groups as a whole.
-/

namespace Markup

/-! ## one group -/

theorem groupLength_cons (depth : Nat) (t : String) (ts : List String) :
    groupLength depth (t :: ts) =
      match Bracket.round.depthAfter depth t with
      | none => some 1
      | some d => (groupLength d ts).map (· + 1) := by
  rw [groupLength.eq_def, Bracket.depthAfter.eq_def]
  simp only [Bracket.opens, Bracket.closes, beq_iff_eq]
  by_cases ho : t = "("
  · rw [if_pos ho, if_pos ho]
  · rw [if_neg ho, if_neg ho]
    by_cases hc : t = ")"
    · rw [if_pos hc, if_pos hc]
      cases depth <;> rfl
    · rw [if_neg hc, if_neg hc]

/-- the search for the partner ends where the scan ends that takes what the bracket encloses -/
theorem groupLength_eq (depth : Nat) (ts : List String) :
    groupLength depth ts = (Bracket.round.enclosed depth ts).map fun (inner, _) => inner.length + 1 := by
  induction ts generalizing depth with
  | nil => rfl
  | cons t ts ih =>
    rw [groupLength_cons]
    cases hd : Bracket.round.depthAfter depth t with
    | none =>
      rw [Bracket.enclosed_cons_of_none hd]
      rfl
    | some d =>
      rw [Bracket.enclosed_cons_of_some hd]
      simp only
      rw [ih, Option.map_map, Option.map_map]
      rfl

/-- the partner of a `(` is the first `)` at its depth -/
theorem enclosed_round_eq_some_iff {ts inner rest : List String} :
    Bracket.round.enclosed 0 ts = some (inner, rest) ↔
      Bracket.round.depthOver 0 inner = some 0 ∧ ts = inner ++ ")" :: rest := by
  rw [Bracket.enclosed_eq_some_iff]
  constructor
  · rintro ⟨t, ht, hd, rfl⟩
    obtain rfl : t = ")" := beq_iff_eq.mp ht
    exact ⟨hd, rfl⟩
  · rintro ⟨hd, rfl⟩
    exact ⟨")", rfl, hd, rfl⟩

/-- tokens one by one, and groups as a whole, up to the first `(` without a partner -/
@[elab_as_elim]
theorem groups_induction {motive : List String → Prop} (nil : motive [])
    (token : ∀ t ts, t ≠ "(" → motive ts → motive (t :: ts))
    (group : ∀ inner rest, Bracket.round.depthOver 0 inner = some 0 → motive rest →
      motive ("(" :: (inner ++ ")" :: rest)))
    (unclosed : ∀ ts, Bracket.round.enclosed 0 ts = none → motive ("(" :: ts)) (ts : List String) :
    motive ts := by
  match ts with
  | [] => exact nil
  | t :: ts =>
    by_cases ht : t = "("
    · subst ht
      cases he : Bracket.round.enclosed 0 ts with
      | none => exact unclosed ts he
      | some p =>
        obtain ⟨inner, rest⟩ := p
        have hlength := Bracket.length_of_enclosed he
        obtain ⟨hd, hts⟩ := enclosed_round_eq_some_iff.mp he
        rw [hts]
        exact group inner rest hd (groups_induction nil token group unclosed rest)
    · exact token t ts ht (groups_induction nil token group unclosed ts)
termination_by ts.length
decreasing_by
  · rw [List.length_cons]
    omega
  · exact Nat.lt_succ_self _

/-! ## folding -/

section
variable {t : String} {ts inner : List String}

theorem foldGroups_nil : foldGroups [] = [] := by
  rw [foldGroups]

theorem foldGroups_token (ht : t ≠ "(") (ts : List String) :
    foldGroups (t :: ts) = t :: foldGroups ts := by
  rw [foldGroups, if_neg ht]

theorem foldGroups_group (hd : Bracket.round.depthOver 0 inner = some 0) (rest : List String) :
    foldGroups ("(" :: (inner ++ ")" :: rest)) =
      groupText ("(" :: (inner ++ [")"])) :: foldGroups rest := by
  have hlength : groupLength 0 (inner ++ ")" :: rest) = some (inner.length + 1) := by
    rw [groupLength_eq, enclosed_round_eq_some_iff.mpr ⟨hd, rfl⟩]
    rfl
  have hrun : (inner ++ [")"]).length = inner.length + 1 := List.length_append
  rw [foldGroups, if_pos rfl, hlength]
  simp only
  rw [List.append_cons, List.take_left' hrun, List.drop_left' hrun]

theorem foldGroups_unclosed (h : Bracket.round.enclosed 0 ts = none) :
    foldGroups ("(" :: ts) = "(" :: ts := by
  have hlength : groupLength 0 ts = none := by
    rw [groupLength_eq, h]
    rfl
  rw [foldGroups, if_pos rfl, hlength]

end

/-! ## the text of a group -/

theorem textAfter_concat_close (afterWord : Bool) (ts : List String) :
    ∃ text, textAfter afterWord (ts ++ [")"]) = text ++ ")" := by
  induction ts generalizing afterWord with
  | nil =>
    have hcomma : ")" ≠ "," := by decide
    rw [List.nil_append, textAfter, textAfter, if_neg hcomma, String.append_empty,
      String.append_empty]
    exact ⟨_, rfl⟩
  | cons t ts ih =>
    obtain ⟨text, h⟩ := ih (t.toList.any isWordlike)
    rw [List.cons_append, textAfter, h, ← String.append_assoc]
    exact ⟨_, rfl⟩

/-- a group is told from the tokens of a source by the brackets around it -/
theorem isGroup_groupText (inner : List String) :
    isGroup (groupText ("(" :: (inner ++ [")"]))) = true := by
  obtain ⟨text, h⟩ := textAfter_concat_close ("(".toList.any isWordlike) inner
  refine isDelimited_iff.mpr ⟨text.toList, ?_⟩
  rw [groupText, textAfter, h]
  simp

theorem groupText_ne_open (inner : List String) : groupText ("(" :: (inner ++ [")"])) ≠ "(" := by
  intro h
  have hgroup := isGroup_groupText inner
  rw [h] at hgroup
  exact absurd hgroup (by decide)

/-- nothing but spaces is written between the tokens of a run -/
theorem filter_textAfter (afterWord : Bool) (ts : List String) :
    (textAfter afterWord ts).toList.filter (· != ' ') =
      (String.join ts).toList.filter (· != ' ') := by
  induction ts generalizing afterWord with
  | nil => rfl
  | cons t ts ih =>
    have hspace : ∀ b : Bool, (if b then " " else "").toList.filter (· != ' ') = [] := by decide
    have hcomma : (if t = "," then " " else "").toList.filter (· != ' ') = [] := by
      split <;> rfl
    rw [textAfter, String.join_cons]
    simp only [String.toList_append, List.filter_append, ih, hspace, hcomma, List.nil_append,
      List.append_nil]

/-! ## pieces -/

/-- what becomes one token of a folded line -/
inductive Piece where
  /-- a token that stays as it is -/
  | token (t : String)
  /-- the tokens of a group, with its brackets -/
  | group (run : List String)
  deriving DecidableEq, Repr

namespace Piece

/-- the token of the folded line -/
def text : Piece → String
  | token t => t
  | group run => groupText run

/-- the tokens of the line -/
def tokens : Piece → List String
  | token t => [t]
  | group run => run

def isFolded : Piece → Bool
  | token _ => false
  | group _ => true

end Piece

namespace Cursor

theorem length_next_lt {c : Cursor} (h : ¬c.atEnd = true) :
    c.next.2.ahead.length < c.ahead.length := by
  have hpos := length_ahead_pos h
  show (c.ahead.drop 1).length < c.ahead.length
  rw [List.length_drop]
  omega

theorem length_takeEnclosed_le (c : Cursor) (b : Bracket) :
    (c.takeEnclosed b).2.ahead.length ≤ c.ahead.length := by
  unfold takeEnclosed
  split <;> exact (List.length_drop ▸ Nat.sub_le _ _)

/-- What a cursor finds that walks to the end of its line.  Behind a `(` it takes what the bracket
encloses, and if there is no closer, it leaves all that is ahead as it is. -/
def pieces (c : Cursor) : List Piece :=
  if c.atEnd then []
  else if c.next.1 = "(" then
    match (c.next.2.takeEnclosed .round).1 with
    | .ok inner =>
      .group ("(" :: (inner.tokens ++ [")"])) :: (c.next.2.takeEnclosed .round).2.pieces
    | .error _ => .token "(" :: c.next.2.ahead.map .token
  else .token c.next.1 :: c.next.2.pieces
termination_by c.ahead.length
decreasing_by
  · exact Nat.lt_of_le_of_lt (length_takeEnclosed_le _ _) (length_next_lt ‹_›)
  · exact length_next_lt ‹_›

section
variable {t : String} {passed ts inner rest : List String}

theorem pieces_nil (passed : List String) (n : Nat) : (Cursor.mk passed [] n).pieces = [] := by
  rw [pieces, if_pos (atEnd_nil passed n)]

theorem pieces_token (ht : t ≠ "(") (passed ts : List String) (n : Nat) :
    (Cursor.mk passed (t :: ts) n).pieces = .token t :: (Cursor.mk (t :: passed) ts n).pieces := by
  rw [pieces, if_neg (not_atEnd_cons _ _ _ _), next_cons, if_neg ht]

theorem pieces_group (hd : Bracket.round.depthOver 0 inner = some 0) (passed rest : List String)
    (n : Nat) :
    (Cursor.mk passed ("(" :: (inner ++ ")" :: rest)) n).pieces =
      .group ("(" :: (inner ++ [")"])) ::
        (Cursor.mk (")" :: (inner.reverse ++ "(" :: passed)) rest n).pieces := by
  have htake : (Cursor.mk ("(" :: passed) (inner ++ ")" :: rest) n).takeEnclosed .round =
      (.ok ⟨inner, n⟩, ⟨")" :: (inner.reverse ++ "(" :: passed), rest, n⟩) := by
    rw [takeEnclosed, enclosed_round_eq_some_iff.mpr ⟨hd, rfl⟩]
    simp only
    rw [skipTo_append_cons]
  rw [pieces, if_neg (not_atEnd_cons _ _ _ _), next_cons, if_pos rfl, htake]

theorem pieces_unclosed (h : Bracket.round.enclosed 0 ts = none) (passed : List String) (n : Nat) :
    (Cursor.mk passed ("(" :: ts) n).pieces = .token "(" :: ts.map .token := by
  have htake : ((Cursor.mk ("(" :: passed) ts n).takeEnclosed .round).1 = .error ⟨.round, n⟩ := by
    rw [takeEnclosed, h]
  rw [pieces, if_neg (not_atEnd_cons _ _ _ _), next_cons, if_pos rfl, htake]

end

theorem map_text_pieces (passed ts : List String) (n : Nat) :
    (Cursor.mk passed ts n).pieces.map Piece.text = foldGroups ts := by
  induction ts using groups_induction generalizing passed with
  | nil => rw [pieces_nil, foldGroups_nil, List.map_nil]
  | token t ts ht ih => rw [pieces_token ht, foldGroups_token ht, List.map_cons, ih]; rfl
  | group inner rest hd ih => rw [pieces_group hd, foldGroups_group hd, List.map_cons, ih]; rfl
  | unclosed ts h =>
    rw [pieces_unclosed h, foldGroups_unclosed h, List.map_cons, List.map_map]
    exact congrArg _ (List.map_id ts)

theorem flatMap_tokens_pieces (passed ts : List String) (n : Nat) :
    (Cursor.mk passed ts n).pieces.flatMap Piece.tokens = ts := by
  induction ts using groups_induction generalizing passed with
  | nil => rw [pieces_nil, List.flatMap_nil]
  | token t ts ht ih => rw [pieces_token ht, List.flatMap_cons, ih]; rfl
  | group inner rest hd ih => rw [pieces_group hd, List.flatMap_cons, ih]; simp [Piece.tokens]
  | unclosed ts h =>
    rw [pieces_unclosed h, List.flatMap_cons, List.flatMap_map]
    exact congrArg _ (List.flatMap_singleton' ts)

/-- a group begins with a `(` and ends with its partner -/
theorem exists_inner_of_mem_pieces {passed ts run : List String} {n : Nat}
    (h : Piece.group run ∈ (Cursor.mk passed ts n).pieces) :
    ∃ inner, Bracket.round.depthOver 0 inner = some 0 ∧ run = "(" :: (inner ++ [")"]) := by
  induction ts using groups_induction generalizing passed with
  | nil =>
    rw [pieces_nil] at h
    exact absurd h List.not_mem_nil
  | token t ts ht ih =>
    rw [pieces_token ht] at h
    rcases List.mem_cons.mp h with h | h
    · exact absurd h (by simp)
    · exact ih h
  | group inner rest hd ih =>
    rw [pieces_group hd] at h
    rcases List.mem_cons.mp h with h | h
    · exact ⟨inner, hd, Piece.group.inj h⟩
    · exact ih h
  | unclosed ts hu =>
    rw [pieces_unclosed hu] at h
    simp at h

end Cursor

/-! ## folded lines -/

theorem IsTextToken.isGroup_eq {t : String} (h : IsTextToken t) : isGroup t = false := by
  rw [Bool.eq_false_iff]
  intro hgroup
  obtain ⟨body, hl⟩ := isDelimited_iff.mp hgroup
  rcases h with (⟨-, hword⟩ | ⟨c, -, rfl⟩ | ⟨inside, -, hq⟩) | ⟨inside, -, hq⟩
  · have hround := hword '(' (by rw [hl]; exact List.mem_cons_self)
    exact absurd hround (by decide)
  · -- an operator has no room for two brackets
    have hlen := congrArg List.length hl
    simp at hlen
  · exact absurd (List.cons.inj (hq.symm.trans hl)).1 (by decide)
  · exact absurd (List.cons.inj (hq.symm.trans hl)).1 (by decide)

theorem Line.IsScanned.isGroup_eq {line : Line} (h : line.IsScanned) {t : String}
    (ht : t ∈ line.tokens) : isGroup t = false := by
  cases h with
  | closer h =>
    rw [h, List.mem_singleton] at ht
    rw [ht]
    decide
  | plain _ h => exact (h t ht).isGroup_eq
  | opener ts h hts =>
    rw [hts] at ht
    rcases List.mem_append.mp ht with ht | ht
    · exact (h t ht).isGroup_eq
    · rw [List.mem_singleton.mp ht]
      decide

theorem Line.folded_eq (line : Line) :
    line.folded = ⟨line.cursor.pieces.map Piece.text, line.number⟩ := by
  rw [Line.folded, Line.cursor, Cursor.map_text_pieces]

theorem Piece.filter_text (piece : Piece) :
    piece.text.toList.filter (· != ' ') =
      (piece.tokens.flatMap String.toList).filter (· != ' ') := by
  cases piece with
  | token t => rw [tokens, List.flatMap_singleton, text]
  | group run => rw [tokens, ← String.toList_join, text, groupText, filter_textAfter]

/-- A folded line has a token for each piece that a cursor finds on the line: a token as it is, or a
group where a `(` is closed.  In a line of a source the groups are the tokens with round brackets
around them.  But for spaces the text stays as it was. -/
theorem Line.folded_matches_pieces (line : Line) :
    line.folded = ⟨line.cursor.pieces.map Piece.text, line.number⟩ ∧
      (∀ source, line ∈ Line.ofSource source →
        ∀ piece ∈ line.cursor.pieces, isGroup piece.text = piece.isFolded) ∧
      (String.join line.folded.tokens).toList.filter (· != ' ') =
        (String.join line.tokens).toList.filter (· != ' ') := by
  have htokens : line.cursor.pieces.flatMap Piece.tokens = line.tokens :=
    Cursor.flatMap_tokens_pieces [] line.tokens line.number
  refine ⟨line.folded_eq, ?_, ?_⟩
  · intro source hsource piece hpiece
    cases piece with
    | token t =>
      refine (Line.isScanned_of_mem hsource).isGroup_eq ?_
      rw [← htokens]
      exact List.mem_flatMap.mpr ⟨_, hpiece, List.mem_singleton_self t⟩
    | group run =>
      obtain ⟨inner, -, rfl⟩ := Cursor.exists_inner_of_mem_pieces hpiece
      exact isGroup_groupText inner
  · calc (String.join line.folded.tokens).toList.filter (· != ' ')
        = line.cursor.pieces.flatMap fun piece => piece.text.toList.filter (· != ' ') := by
          rw [line.folded_eq, String.toList_join, List.flatMap_map, List.filter_flatMap]
      _ = line.cursor.pieces.flatMap fun piece =>
            (piece.tokens.flatMap String.toList).filter (· != ' ') := by
          simp only [Piece.filter_text]
      _ = (String.join line.tokens).toList.filter (· != ' ') := by
          rw [← htokens, String.toList_join, List.flatMap_assoc, List.filter_flatMap]

/-- a group in a group, a closer without an opener, and an opener without a closer -/
theorem Line.folded_matches_pieces_menu :
    let line : Line := ⟨["v", "=", "(", "1", ",", "(", "x", ")", ")", ")", "(", "2"], 1⟩
    line ∈ Line.ofSource "v = (1, (x)) ) (2;" ∧
      line.cursor.pieces = [.token "v", .token "=",
        .group ["(", "1", ",", "(", "x", ")", ")"], .token ")", .token "(", .token "2"] ∧
      line.folded.tokens = ["v", "=", "(1, (x))", ")", "(", "2"] ∧
      ∀ piece ∈ line.cursor.pieces, isGroup piece.text = piece.isFolded := by
  intro line
  have hsource : line ∈ Line.ofSource "v = (1, (x)) ) (2;" := by decide
  have hpieces : line.cursor.pieces = [.token "v", .token "=",
      .group ["(", "1", ",", "(", "x", ")", ")"], .token ")", .token "(", .token "2"] := by
    show (Cursor.mk [] ("v" :: "=" :: "(" :: (["1", ",", "(", "x", ")"] ++ ")" :: [")", "(", "2"]))
      1).pieces = _
    rw [Cursor.pieces_token (by decide), Cursor.pieces_token (by decide), Cursor.pieces_group rfl,
      Cursor.pieces_token (by decide), Cursor.pieces_unclosed rfl]
    rfl
  obtain ⟨hfolded, hgroups, -⟩ := Line.folded_matches_pieces line
  refine ⟨hsource, hpieces, ?_, hgroups _ hsource⟩
  rw [hfolded, hpieces]
  decide

/-! ## folding once more -/

theorem foldGroups_foldGroups (ts : List String) : foldGroups (foldGroups ts) = foldGroups ts := by
  induction ts using groups_induction with
  | nil => rw [foldGroups_nil, foldGroups_nil]
  | token t ts ht ih => rw [foldGroups_token ht, foldGroups_token ht, ih]
  | group inner rest hd ih =>
    rw [foldGroups_group hd, foldGroups_token (groupText_ne_open inner), ih]
  | unclosed ts h => rw [foldGroups_unclosed h, foldGroups_unclosed h]

/-- Folding a line once more changes nothing: the text of a group is no `(`, and behind a `(` without a
partner nothing is folded the second time either. -/
theorem Line.folded_folded (line : Line) : line.folded.folded = line.folded := by
  rw [Line.folded, Line.folded, foldGroups_foldGroups]

end Markup
