import Markup.Proofs.Bracket.Squares
import Markup.Proofs.Shape.Text

/-!
# Accepted values and their parts

A value is accepted, that is, it has a shape, just if the bracket check accepts its tokens: behind an
opener of an accepted value no scan fails (`Shape.ofText_eq_error_iff`).  The index of an accepted
value is accepted again.  A component or an argument need not be: the commas between them are looked
for in round brackets only, and a comma in a square bracket cuts this bracket (`Shape.ofText_parts`,
`Shape.comma_cuts_square`).

* `Shape.IsAccepted`      values that have a shape.
-/

namespace Markup

/-- behind each opener of an accepted line the scans that can be made there succeed -/
theorem scans_of_unclosed? {ts before behind : List String} {b : Bracket}
    (h : unclosed? ts = none) (hts : ts = before ++ b.opener :: behind) :
    b.enclosed 0 behind ≠ none ∧ (b = .round → arguments behind ≠ none) := by
  subst hts
  have hopener : unclosed? (b.opener :: behind) = none :=
    unclosed?_eq_none_iff.mpr (unclosed?_eq_none_iff.mp h).of_append
  obtain ⟨inner, rest, he⟩ := exists_enclosed b.ofOpener?_opener hopener
  have hne : b.enclosed 0 behind ≠ none := by
    rw [he]
    exact Option.some_ne_none _
  refine ⟨hne, ?_⟩
  rintro rfl hnone
  exact hne (arguments_eq_none.mp hnone)

/-! ## commas at the depth of the arguments -/

theorem commasOutside_round {inner : List String} (h : Bracket.round.depthOver 0 inner = some 0) :
    CommasOutside 1 ("(" :: (inner ++ [")"])) ↔ CommasOutside 0 inner := by
  have hopen : ∀ ts, Bracket.round.depthOver 0 ("(" :: ts) = Bracket.round.depthOver 1 ts :=
    fun _ => rfl
  constructor
  · rintro hall before behind rfl hd
    refine hall ("(" :: before) (behind ++ [")"]) ?_ ((hopen before).trans ?_)
    · rw [List.append_assoc, List.cons_append, List.cons_append]
    · exact Bracket.depthOver_add hd 1
  · intro hall before behind heq hd
    cases before with
    | nil => exact absurd (List.cons.inj heq).1 (by decide)
    | cons t ts =>
      obtain ⟨rfl, hts⟩ := List.cons.inj heq
      rcases exists_of_append_eq hts with ⟨vs, rfl, hvs⟩ | ⟨vs, -, hvs⟩
      · cases vs with
        | nil => exact absurd (List.cons.inj hvs).1 (by decide)
        | cons v vs =>
          obtain ⟨rfl, -⟩ := List.cons.inj hvs
          refine hall ts vs rfl ?_
          -- the depth in the bracket is one less
          rw [Bracket.depthOver_append] at h
          obtain ⟨d, hover, -⟩ := Option.bind_eq_some_iff.mp h
          have hone : d + 1 = 1 :=
            Option.some.inj ((Bracket.depthOver_add hover 1).symm.trans ((hopen ts).symm.trans hd))
          rw [hover, Nat.succ.inj hone]
      · exact absurd hvs (by simp)

theorem commasOutside_cons_of_isNeutral {t : String} (ht : Bracket.IsNeutral t) (ts : List String) :
    CommasOutside 1 (t :: ts) ↔ CommasOutside 1 ts := by
  have hdepth : ∀ us, Bracket.round.depthOver 0 (t :: us) = Bracket.round.depthOver 0 us :=
    fun us => Bracket.depthOver_cons_of_some (ht.depthAfter 0) us
  have hcount : ∀ us, openSquares 0 (t :: us) = openSquares 0 us := by
    intro us
    rw [openSquares_cons, squaresAfter_of_isNeutral ht]
  constructor
  · rintro hall before behind rfl hd
    rw [← hcount]
    exact hall (t :: before) behind rfl ((hdepth before).trans hd)
  · intro hall before behind heq hd
    cases before with
    | nil => rfl
    | cons v vs =>
      obtain ⟨rfl, hvs⟩ := List.cons.inj heq
      rw [hcount]
      exact hall vs behind hvs ((hdepth vs).symm.trans hd)

namespace Shape

/-! ## accepted values -/

/-- the value has a shape -/
def IsAccepted (value : String) : Prop := ∃ shape, ofText value = .ok shape

theorem isAccepted_iff {value : String} : IsAccepted value ↔ unclosed? (tokensOf value) = none := by
  constructor
  · rintro ⟨shape, h⟩
    exact (ofText_eq_ok.mp h).1
  · exact exists_ofText

theorem ofText_eq_error {value : String} {b : Bracket} (h : unclosed? (tokensOf value) = some b) :
    ofText value = .error ⟨b, 1⟩ := by
  rw [ofText, requireClosed, h]
  rfl

/-- A value fails just if the bracket check of its tokens on line 1 does, and with the same error.
Where the check accepts, the scans behind openers find what they look for. -/
theorem ofText_eq_error_iff (value : String) :
    (∀ u, ofText value = .error u ↔ (Line.mk (tokensOf value) 1).cursor.requireClosed = .error u) ∧
      ((Line.mk (tokensOf value) 1).cursor.requireClosed = .ok () →
        ∀ (b : Bracket) (before behind : List String),
          tokensOf value = before ++ b.opener :: behind →
            b.enclosed 0 behind ≠ none ∧ (b = .round → arguments behind ≠ none)) := by
  show (∀ u, _ ↔ requireClosed 1 (tokensOf value) = _) ∧ (requireClosed 1 (tokensOf value) = _ → _)
  constructor
  · intro u
    cases hc : unclosed? (tokensOf value) with
    | none =>
      obtain ⟨shape, hs⟩ := exists_ofText hc
      have hcheck : requireClosed 1 (tokensOf value) = .ok () := requireClosed_eq_ok.mpr hc
      rw [hs, hcheck]
      simp
    | some b =>
      rw [ofText_eq_error hc, requireClosed, hc]
      show Except.error _ = Except.error u ↔ Except.error _ = Except.error u
      rw [Except.error.injEq, Except.error.injEq]
  · intro h b before behind hts
    exact scans_of_unclosed? (requireClosed_eq_ok.mp h) hts

/-- a value that fails, and one that does not: the scans behind its openers -/
theorem ofText_eq_error_iff_menu :
    ofText "f(a, [1)" = .error ⟨.square, 1⟩ ∧
      (Line.mk (tokensOf "f(a[i])") 1).cursor.requireClosed = .ok () ∧
      tokensOf "f(a[i])" = ["f", "(", "a", "[", "i", "]", ")"] ∧
      arguments ["a", "[", "i", "]", ")"] ≠ none ∧
      Bracket.square.enclosed 0 ["i", "]", ")"] ≠ none := by
  have htokens : tokensOf "f(a[i])" = ["f", "(", "a", "[", "i", "]", ")"] := by decide +kernel
  have hcheck : (Line.mk (tokensOf "f(a[i])") 1).cursor.requireClosed = .ok () :=
    requireClosed_eq_ok.mpr (by decide +kernel)
  have hscans := (ofText_eq_error_iff "f(a[i])").2 hcheck
  have hopen : unclosed? (tokensOf "f(a, [1)") = some .square := by decide +kernel
  have hfails : (Line.mk (tokensOf "f(a, [1)") 1).cursor.requireClosed = .error ⟨.square, 1⟩ := by
    show requireClosed 1 (tokensOf "f(a, [1)") = _
    rw [requireClosed, hopen]
  refine ⟨((ofText_eq_error_iff "f(a, [1)").1 _).mpr hfails, hcheck, htokens, ?_, ?_⟩
  · exact (hscans .round ["f"] _ htokens).2 rfl
  · exact (hscans .square ["f", "(", "a"] _ htokens).1

/-! ## parts -/

section
variable {inner : List String} {args : List (List String)}

theorem isAccepted_spaced (h : ∀ t ∈ inner, IsWholeToken t) :
    IsAccepted (spaced inner) ↔ unclosed? inner = none := by
  rw [isAccepted_iff, (Scan.adds_spaced h).tokensOf]

/-- the parts among the tokens of a round bracket that is accepted -/
theorem parts_of_isArgumentList (hlist : IsArgumentList args inner)
    (hc : unclosed? ("(" :: (inner ++ [")"])) = none)
    (hargs : ∀ arg ∈ args, ∀ t ∈ arg, IsWholeToken t) :
    ((∀ part ∈ args.map spaced, IsAccepted part) ↔ CommasOutside 1 ("(" :: (inner ++ [")"]))) ∧
      ∀ part ∈ args.map spaced, ¬IsAccepted part → ofText part = .error ⟨.square, 1⟩ := by
  have hpair : unclosed? ("(" :: (inner ++ [")"])) = (unclosed? inner).or (unclosed? []) :=
    unclosed?_pair hlist.depthOver rfl []
  rw [hpair, Option.or_eq_none_iff] at hc
  rw [commasOutside_round hlist.depthOver, ← hlist.forall_closed_iff hc.1, List.forall_mem_map,
    List.forall_mem_map]
  refine ⟨?_, ?_⟩
  · exact forall₂_congr fun arg ha => isAccepted_spaced (hargs arg ha)
  · intro arg ha hne
    have htokens := (Scan.adds_spaced (hargs arg ha)).tokensOf
    rw [isAccepted_spaced (hargs arg ha)] at hne
    obtain ⟨b, hb⟩ := Option.ne_none_iff_exists'.mp hne
    obtain rfl := hlist.unclosed?_of_mem hc.1 ha hb
    exact ofText_eq_error (by rw [htokens, hb])

end

theorem isNeutral_of_isIdentifier {name : String} (h : isIdentifier name = true) :
    Bracket.IsNeutral name := by
  rw [Bracket.isNeutral_iff]
  intro hmem
  simp only [List.mem_cons, List.not_mem_nil, or_false] at hmem
  rcases hmem with rfl | rfl | rfl | rfl <;> exact absurd h (by decide +kernel)

/-- The index of a value is accepted.  All components or arguments are accepted just if no comma
between them stands in a square bracket, and one that is not has a square bracket without a partner. -/
theorem ofText_parts {value : String} {shape : Shape} (h : ofText value = .ok shape) :
    match shape with
    | .vector parts | .call _ parts =>
      ((∀ part ∈ parts, IsAccepted part) ↔ CommasOutside 1 (tokensOf value)) ∧
        ∀ part ∈ parts, ¬IsAccepted part → ofText part = .error ⟨.square, 1⟩
    | .index _ inner => IsAccepted inner
    | .empty | .string _ | .plain _ => True := by
  obtain ⟨hclosed, htokens⟩ := ofText_eq_ok.mp h
  have hrun := isTokenRun_tokensOf value
  have hdescribes := describes_of_ofTokens htokens
  generalize tokensOf value = ts at hclosed hrun hdescribes
  cases hdescribes with
  | empty | string | plain => trivial
  | @vector args inner hlist =>
    obtain ⟨-, hargs⟩ := isWholeToken_parts [] hrun hlist
    exact parts_of_isArgumentList hlist hclosed hargs
  | @call name args inner hn hlist =>
    obtain ⟨-, hargs⟩ := isWholeToken_parts [name] hrun hlist
    rw [unclosed?_cons_of_none (ofOpener?_of_isIdentifier hn)] at hclosed
    show (_ ↔ CommasOutside 1 (name :: _)) ∧ _
    rw [commasOutside_cons_of_isNeutral (isNeutral_of_isIdentifier hn)]
    exact parts_of_isArgumentList hlist hclosed hargs
  | @index target inner t hn hd ht =>
    rw [← List.cons_append, ← List.cons_append] at hrun
    have hwhole := hrun.whole_of_append (List.cons_ne_nil _ _)
    have hinner : ∀ u ∈ inner, IsWholeToken u :=
      fun u hu => hwhole u (List.mem_cons_of_mem _ (List.mem_cons_of_mem _ hu))
    have hpair : unclosed? ("[" :: (inner ++ [t])) = (unclosed? inner).or (unclosed? []) :=
      unclosed?_pair hd ht []
    rw [unclosed?_cons_of_none (ofOpener?_of_isIdentifier hn), hpair, Option.or_eq_none_iff] at hclosed
    exact (isAccepted_spaced hinner).mpr hclosed.1

/-- commas in brackets of both kinds, and none of them is between two arguments -/
theorem ofText_parts_menu :
    let value := "f(g(a[1, 2]), b[i])"
    let parts := ["g ( a [ 1 , 2 ] )", "b [ i ]"]
    ofText value = .ok (.call "f" parts) ∧ CommasOutside 1 (tokensOf value) ∧
      ∀ part ∈ parts, IsAccepted part := by
  intro value parts
  have htokens : tokensOf value =
      ["f", "(", "g", "(", "a", "[", "1", ",", "2", "]", ")", ",", "b", "[", "i", "]", ")"] := by
    decide +kernel
  have h : ofText value = .ok (.call "f" parts) := by
    have hname : isIdentifier "f" = true := by decide +kernel
    have ha : arguments
        ["g", "(", "a", "[", "1", ",", "2", "]", ")", ",", "b", "[", "i", "]", ")"] =
          some ([["g", "(", "a", "[", "1", ",", "2", "]", ")"], ["b", "[", "i", "]"]], []) := rfl
    rw [ofText_eq_ok, htokens]
    exact ⟨by decide +kernel, ofTokens_call hname ha⟩
  have hcommas : CommasOutside 1 (tokensOf value) := by decide +kernel
  exact ⟨h, hcommas, (ofText_parts h).1.mpr hcommas⟩

/-- a comma in a square bracket cuts it, and leaves its opener in front without a partner -/
theorem comma_cuts_square :
    ofText "(a[1,2])" = .ok (.vector ["a [ 1", "2 ]"]) ∧ ¬IsAccepted "a [ 1" := by
  refine ⟨ofText_eq_ok.mpr ⟨by decide +kernel, rfl⟩, ?_⟩
  rw [isAccepted_iff]
  decide +kernel

end Shape
end Markup
