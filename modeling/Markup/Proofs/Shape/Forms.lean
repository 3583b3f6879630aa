import Markup.Proofs.Bracket.Grouped
import Markup.Proofs.Bracket.Splitting
import Markup.Proofs.Shape.Text

/-!
# The form of a value

The shape of a value whose brackets are properly nested is decided by its first tokens and by the
place of one closer: a round bracket is a vector, and an identifier in front of a bracket a call or an
indexed target, just if the partner of the opener is the last token (`Shape.exists_isShapeOf`).  What
stands in the bracket does not matter, and all other values are plain text.

* `Bracket.Spans`        the tokens are one bracket with what it encloses;
* `Shape.HasForm`        the tokens that are not plain text;
* `Shape.IsShapeOf`      the shape is the one that the tokens ask for.
-/

namespace Markup

/-! ## one bracket -/

/-- the tokens begin with an opener, and its partner is the last of them -/
def Bracket.Spans (b : Bracket) (ts : List String) : Prop :=
  ∃ inner, IsGrouped false inner ∧ ts = b.opener :: (inner ++ [b.closer])

/-- in properly nested tokens, the closer that ends a scan behind an opener is the partner -/
theorem IsGrouped.spans {b : Bracket} (before : List String) {inner : List String} {t : String}
    (h : IsGrouped false (before ++ b.opener :: (inner ++ [t])))
    (hd : b.depthOver 0 inner = some 0) (ht : b.closes t = true) :
    b.Spans (b.opener :: (inner ++ [t])) := by
  obtain ⟨group, after, hgroup, htokens⟩ := h.exists_group rfl
  have hscan : b.enclosed 0 (inner ++ [t]) = some (inner, []) :=
    Bracket.enclosed_eq_some_iff.mpr ⟨t, ht, hd, rfl⟩
  -- the scan ends at the partner, and behind its end there are no tokens
  have hpartner := hgroup.enclosed b after
  rw [← htokens, hscan] at hpartner
  obtain ⟨rfl, rfl⟩ := Prod.mk.inj (Option.some.inj hpartner)
  exact ⟨inner, hgroup, by rw [htokens]⟩

namespace Shape

section
variable {ts : List String} {name s : String}

/-! ## tokens of a certain form -/

theorem ofTokens_string (h : isClosedString s = true) : ofTokens [s] = .ok (.string s) := by
  unfold ofTokens
  simp only
  rw [h, List.isEmpty_nil, Bool.and_self, if_pos rfl]

theorem exists_vector (h : Bracket.round.Spans ts) :
    ∃ parts, ofTokens ts = .ok (.vector parts) := by
  obtain ⟨inner, hinner, rfl⟩ := h
  obtain ⟨args, ha, -⟩ := arguments_of_enclosed (hinner.enclosed .round [])
  exact ⟨_, ofTokens_vector ha⟩

theorem exists_call (hn : isIdentifier name = true) (h : Bracket.round.Spans ts) :
    ∃ args, ofTokens (name :: ts) = .ok (.call name args) := by
  obtain ⟨inner, hinner, rfl⟩ := h
  obtain ⟨args, ha, -⟩ := arguments_of_enclosed (hinner.enclosed .round [])
  exact ⟨_, ofTokens_call hn ha⟩

theorem exists_index (hn : isIdentifier name = true) (h : Bracket.square.Spans ts) :
    ∃ inner, ofTokens (name :: ts) = .ok (.index name inner) := by
  obtain ⟨inner, hinner, rfl⟩ := h
  exact ⟨_, ofTokens_index hn (hinner.enclosed .square [])⟩

/-! ## tokens of a certain shape -/

theorem isClosedString_of_ofTokens (h : ofTokens ts = .ok (.string s)) :
    ts = [s] ∧ isClosedString s = true := by
  have hts : ts = [s] := by
    cases describes_of_ofTokens h with
    | string => rfl
  subst hts
  refine ⟨rfl, ?_⟩
  cases hs : isClosedString s with
  | true => rfl
  | false =>
    -- a token by itself would be plain text, or an opener without a partner
    unfold ofTokens at h
    simp only [hs] at h
    split at h
    · next hempty => exact absurd hempty (by decide)
    · split at h
      · exact absurd h (by simp [arguments])
      · split at h <;> exact absurd h (by simp)

/-- properly nested tokens with the shape of a vector are one round bracket -/
theorem spans_of_vector (h : IsGrouped false ts) {parts : List String}
    (hs : ofTokens ts = .ok (.vector parts)) : Bracket.round.Spans ts := by
  cases describes_of_ofTokens hs with
  | vector hlist => exact IsGrouped.spans [] h hlist.depthOver rfl

theorem spans_of_call (h : IsGrouped false ts) {args : List String}
    (hs : ofTokens ts = .ok (.call name args)) :
    ∃ rest, ts = name :: rest ∧ isIdentifier name = true ∧ Bracket.round.Spans rest := by
  cases describes_of_ofTokens hs with
  | call hn hlist => exact ⟨_, rfl, hn, IsGrouped.spans [name] h hlist.depthOver rfl⟩

theorem spans_of_index (h : IsGrouped false ts) {inner : String}
    (hs : ofTokens ts = .ok (.index name inner)) :
    ∃ rest, ts = name :: rest ∧ isIdentifier name = true ∧ Bracket.square.Spans rest := by
  cases describes_of_ofTokens hs with
  | index hn hd ht => exact ⟨_, rfl, hn, IsGrouped.spans [name] h hd ht⟩

/-! ## the shape that the tokens ask for -/

/-- the tokens of a value that is not plain text -/
inductive HasForm : List String → Prop
  | empty : HasForm []
  | string {s : String} (h : IsQuotation s) : HasForm [s]
  | vector {ts : List String} (h : Bracket.round.Spans ts) : HasForm ts
  | call {name : String} {ts : List String} (hn : isIdentifier name = true)
      (h : Bracket.round.Spans ts) : HasForm (name :: ts)
  | index {target : String} {ts : List String} (hn : isIdentifier target = true)
      (h : Bracket.square.Spans ts) : HasForm (target :: ts)

/-- the shape is the one that the tokens ask for -/
structure IsShapeOf (shape : Shape) (ts : List String) : Prop where
  empty : shape = .empty ↔ ts = []
  string (s : String) : shape = .string s ↔ ts = [s] ∧ IsQuotation s
  vector : (∃ parts, shape = .vector parts) ↔ Bracket.round.Spans ts
  call (name : String) : (∃ args, shape = .call name args) ↔
    ∃ rest, ts = name :: rest ∧ isIdentifier name = true ∧ Bracket.round.Spans rest
  index (target : String) : (∃ inner, shape = .index target inner) ↔
    ∃ rest, ts = target :: rest ∧ isIdentifier target = true ∧ Bracket.square.Spans rest
  plain (text : String) : shape = .plain text ↔ text = spaced ts ∧ ¬HasForm ts

/-- one of the forms is that of the tokens, unless they are plain text -/
theorem hasForm_or_plain {shape : Shape} (h : IsGrouped false ts) (hrun : IsTokenRun ts)
    (hs : ofTokens ts = .ok shape) : HasForm ts ∨ shape = .plain (spaced ts) := by
  cases shape with
  | empty =>
    cases describes_of_ofTokens hs with
    | empty => exact .inl .empty
  | string s =>
    obtain ⟨rfl, hc⟩ := isClosedString_of_ofTokens hs
    exact .inl (.string ((hrun.isClosedString_iff List.mem_cons_self).mp hc))
  | vector parts => exact .inl (.vector (spans_of_vector h hs))
  | call name args =>
    obtain ⟨rest, rfl, hn, hspans⟩ := spans_of_call h hs
    exact .inl (.call hn hspans)
  | index target inner =>
    obtain ⟨rest, rfl, hn, hspans⟩ := spans_of_index h hs
    exact .inl (.index hn hspans)
  | plain text =>
    cases describes_of_ofTokens hs with
    | plain => exact .inr rfl

theorem ne_plain_of_hasForm (h : HasForm ts) (hrun : IsTokenRun ts) (text : String) :
    ofTokens ts ≠ .ok (.plain text) := by
  cases h with
  | empty => simp [ofTokens]
  | string h =>
    rw [ofTokens_string ((hrun.isClosedString_iff List.mem_cons_self).mpr h)]
    simp
  | vector h =>
    obtain ⟨parts, hs⟩ := exists_vector h
    simp [hs]
  | call hn h =>
    obtain ⟨args, hs⟩ := exists_call hn h
    simp [hs]
  | index hn h =>
    obtain ⟨inner, hs⟩ := exists_index hn h
    simp [hs]

theorem isShapeOf_of_ofTokens {shape : Shape} (h : IsGrouped false ts) (hrun : IsTokenRun ts)
    (hs : ofTokens ts = .ok shape) : shape.IsShapeOf ts where
  empty := by
    constructor
    · rintro rfl
      cases describes_of_ofTokens hs with
      | empty => rfl
    · rintro rfl
      exact (Except.ok.inj hs).symm
  string s := by
    constructor
    · rintro rfl
      obtain ⟨rfl, hc⟩ := isClosedString_of_ofTokens hs
      exact ⟨rfl, (hrun.isClosedString_iff List.mem_cons_self).mp hc⟩
    · rintro ⟨rfl, hq⟩
      have hc := (hrun.isClosedString_iff List.mem_cons_self).mpr hq
      exact Except.ok.inj (hs.symm.trans (ofTokens_string hc))
  vector := by
    constructor
    · rintro ⟨parts, rfl⟩
      exact spans_of_vector h hs
    · intro hspans
      obtain ⟨parts, hv⟩ := exists_vector hspans
      exact ⟨parts, Except.ok.inj (hs.symm.trans hv)⟩
  call name := by
    constructor
    · rintro ⟨args, rfl⟩
      exact spans_of_call h hs
    · rintro ⟨rest, rfl, hn, hspans⟩
      obtain ⟨args, hc⟩ := exists_call hn hspans
      exact ⟨args, Except.ok.inj (hs.symm.trans hc)⟩
  index target := by
    constructor
    · rintro ⟨inner, rfl⟩
      exact spans_of_index h hs
    · rintro ⟨rest, rfl, hn, hspans⟩
      obtain ⟨inner, hi⟩ := exists_index hn hspans
      exact ⟨inner, Except.ok.inj (hs.symm.trans hi)⟩
  plain text := by
    constructor
    · rintro rfl
      refine ⟨?_, fun hform => ne_plain_of_hasForm hform hrun text hs⟩
      cases describes_of_ofTokens hs with
      | plain => rfl
    · rintro ⟨rfl, hform⟩
      exact (hasForm_or_plain h hrun hs).resolve_left hform

end

/-- A value with properly nested brackets has a shape.  Its tokens decide which, and its parts are
found among them. -/
theorem exists_isShapeOf {value : String} (h : IsGrouped false (tokensOf value)) :
    ∃ shape, ofText value = .ok shape ∧ shape.IsShapeOf (tokensOf value) ∧
      shape.Describes (tokensOf value) := by
  obtain ⟨shape, hs⟩ := exists_ofTokens h.unclosed?
  exact ⟨shape, ofText_eq_ok.mpr ⟨h.unclosed?, hs⟩,
    isShapeOf_of_ofTokens h (isTokenRun_tokensOf value) hs, describes_of_ofTokens hs⟩

/-- both kinds of brackets in an argument, and a string that holds a closer -/
theorem exists_isShapeOf_menu :
    let value := "f(a[(i)], \")\")"
    IsGrouped false (tokensOf value) ∧
      ∃ shape, ofText value = .ok shape ∧ shape.IsShapeOf (tokensOf value) ∧
        shape.Describes (tokensOf value) := by
  intro value
  have htoken : ∀ {us} t, t ∉ ["(", ")", "[", "]"] → IsGrouped false us → IsGrouped false (t :: us) :=
    fun t ht h => .token (Bracket.isNeutral_iff.mpr ht) h
  have htokens : tokensOf value =
      ["f", "(", "a", "[", "(", "i", ")", "]", ",", "\")\"", ")"] := by decide +kernel
  have hround : IsGrouped false (Bracket.round.opener :: (["i"] ++ Bracket.round.closer :: [])) :=
    .group .round (htoken "i" (by decide) .nil) .nil
  have hargs : IsGrouped false ["a", "[", "(", "i", ")", "]", ",", "\")\""] :=
    htoken "a" (by decide) (.group .square hround
      (htoken "," (by decide) (htoken "\")\"" (by decide) .nil)))
  have h : IsGrouped false (tokensOf value) := by
    rw [htokens]
    exact htoken "f" (by decide) (.group .round hargs .nil)
  exact ⟨h, exists_isShapeOf h⟩

end Shape
end Markup
