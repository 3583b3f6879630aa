import Markup.Proofs.Bracket.Arguments
import Markup.Proofs.Line.Run
import Markup.Proofs.Shape

/-!
# A shape written out

The text of a shape is read as this shape again, but for a vector or call whose first part is empty
(`Shape.ofText_text_iff`).  The tokens are those of the value, apart from two: a comma right behind
the opener is not written, and an index is closed by a square bracket.  So the arguments are the same
as before unless the first one has no tokens; then the comma that stood behind it is right behind the
opener, and the arguments are one less.

* `Shape.firstPart?`     the first component of a vector, or argument of a call;
* `Shape.Describes`      what the shape of a value says of its tokens.
-/

namespace Markup

theorem spaced_eq_empty {ts : List String} (h : ∀ t ∈ ts, IsWholeToken t) :
    spaced ts = "" ↔ ts = [] := by
  refine ⟨fun he => ?_, fun he => by rw [he]; rfl⟩
  rw [← (Scan.adds_spaced h).tokensOf, he]
  rfl

namespace Shape

/-- the first component of a vector, or argument of a call -/
def firstPart? : Shape → Option String
  | .vector components => components.head?
  | .call _ args => args.head?
  | _ => none

/-! ## the tokens of a shape -/

/-- what the shape of a value says of its tokens; that of a plain text holds them all -/
inductive Describes : Shape → List String → Prop
  | empty : Describes .empty []
  | string (literal : String) : Describes (.string literal) [literal]
  | vector {args : List (List String)} {inner : List String} (h : IsArgumentList args inner) :
      Describes (.vector (args.map spaced)) ("(" :: (inner ++ [")"]))
  | call {name : String} {args : List (List String)} {inner : List String}
      (hn : isIdentifier name = true) (h : IsArgumentList args inner) :
      Describes (.call name (args.map spaced)) (name :: "(" :: (inner ++ [")"]))
  | index {target : String} {inner : List String} {t : String} (hi : isIdentifier target = true)
      (hd : Bracket.square.depthOver 0 inner = some 0) (ht : Bracket.square.closes t = true) :
      Describes (.index target (spaced inner)) (target :: "[" :: (inner ++ [t]))
  | plain (ts : List String) : Describes (.plain (spaced ts)) ts

/-- a round bracket that ends with the tokens holds arguments -/
theorem isArgumentList_or_plain {ts all : List String} {f : List (List String) → Shape}
    {shape : Shape}
    (h : (match arguments ts with
      | none => .error ⟨.round, 1⟩
      | some (args, []) => .ok (f args)
      | some (_, _ :: _) => .ok (.plain (spaced all))) = Except.ok (ε := Unclosed) shape) :
    (∃ args inner, IsArgumentList args inner ∧ ts = inner ++ [")"] ∧ f args = shape) ∨
      .plain (spaced all) = shape := by
  split at h
  · exact absurd h (by simp)
  · next args ha =>
    obtain ⟨inner, hlist, hts⟩ := arguments_eq_some_iff.mp ha
    exact .inl ⟨args, inner, hlist, hts, Except.ok.inj h⟩
  · exact .inr (Except.ok.inj h)

theorem describes_of_ofTokens {ts : List String} {shape : Shape} (h : ofTokens ts = .ok shape) :
    shape.Describes ts := by
  have hplain : ∀ {us}, Except.ok (ε := Unclosed) (Shape.plain (spaced us)) = .ok shape →
      shape.Describes us := fun h => Except.ok.inj h ▸ .plain _
  unfold ofTokens at h
  split at h
  · exact Except.ok.inj h ▸ .empty
  · next t ts =>
    split at h
    · next hs =>
      obtain rfl := List.isEmpty_iff.mp (Bool.and_eq_true_iff.mp hs).1
      exact Except.ok.inj h ▸ .string t
    · split at h
      · next ht =>
        subst ht
        rcases isArgumentList_or_plain h with ⟨args, inner, hlist, rfl, rfl⟩ | rfl
        · exact .vector hlist
        · exact .plain _
      · split at h
        · next hi =>
          split at h
          · exact hplain h
          · next u us =>
            split at h
            · next hu =>
              subst hu
              rcases isArgumentList_or_plain h with ⟨args, inner, hlist, rfl, rfl⟩ | rfl
              · exact .call hi hlist
              · exact .plain _
            · split at h
              · next hu =>
                subst hu
                split at h
                · exact absurd h (by simp)
                · next inner he =>
                  obtain ⟨t', ht', hd, rfl⟩ := Bracket.enclosed_eq_some_iff.mp he
                  exact Except.ok.inj h ▸ .index hi hd ht'
                · exact hplain h
              · exact hplain h
        · exact hplain h

section
variable {name : String} {ts inner : List String} {args : List (List String)}

theorem ofTokens_vector (h : arguments ts = some (args, [])) :
    ofTokens ("(" :: ts) = .ok (.vector (args.map spaced)) := by
  have hs : isClosedString "(" = false := by decide
  unfold ofTokens
  simp only
  rw [hs, Bool.and_false, if_neg (by decide), if_pos trivial, h]

theorem ne_openRound_of_isIdentifier (hn : isIdentifier name = true) : name ≠ "(" := by
  rintro rfl
  exact absurd (ofOpener?_of_isIdentifier hn) (by decide)

theorem ofTokens_call (hn : isIdentifier name = true) (h : arguments ts = some (args, [])) :
    ofTokens (name :: "(" :: ts) = .ok (.call name (args.map spaced)) := by
  unfold ofTokens
  simp only
  rw [List.isEmpty_cons, Bool.false_and, if_neg (by decide),
    if_neg (ne_openRound_of_isIdentifier hn), if_pos hn, if_pos trivial, h]

theorem ofTokens_index (hn : isIdentifier name = true)
    (h : Bracket.square.enclosed 0 ts = some (inner, [])) :
    ofTokens (name :: "[" :: ts) = .ok (.index name (spaced inner)) := by
  unfold ofTokens
  simp only
  rw [List.isEmpty_cons, Bool.false_and, if_neg (by decide),
    if_neg (ne_openRound_of_isIdentifier hn), if_pos hn, if_neg (by decide), if_pos trivial, h]

end

theorem ofText_eq_ok {value : String} {shape : Shape} :
    ofText value = .ok shape ↔
      unclosed? (tokensOf value) = none ∧ ofTokens (tokensOf value) = .ok shape := by
  unfold ofText requireClosed
  cases unclosed? (tokensOf value) with
  | none => exact ⟨fun h => ⟨rfl, h⟩, fun h => h.2⟩
  | some b => exact ⟨fun h => absurd h (by simp [Except.bind]), fun h => absurd h.1 (by simp)⟩

/-! ## reading the text -/

section
variable {ts inner : List String} {args : List (List String)}

theorem listed_cons_cons (a b : String) (parts : List String) :
    listed (a :: b :: parts) = a ++ ", " ++ listed (b :: parts) := by
  simp [listed, String.intercalate_cons_cons]

theorem adds_listed (h : ∀ arg ∈ args, ∀ t ∈ arg, IsWholeToken t) :
    Scan.Adds (listed (args.map spaced)) (commas args) := by
  induction args with
  | nil => exact .empty
  | cons arg args ih =>
    obtain ⟨harg, hargs⟩ := List.forall_mem_cons.mp h
    cases args with
    | nil =>
      rw [commas_singleton, List.map_singleton, listed, String.intercalate_singleton]
      exact Scan.adds_spaced harg
    | cons next args =>
      have hrest := Scan.Adds.blank .empty (ih hargs)
      have hcomma := Scan.Adds.sign (c := ',') rfl (Scan.adds_spaced harg) hrest
      have hsep : ", " = String.singleton ',' ++ ("" ++ " ") := rfl
      have htext : listed ((arg :: next :: args).map spaced) =
          spaced arg ++ String.singleton ',' ++ ("" ++ " " ++ listed ((next :: args).map spaced)) := by
        rw [List.map_cons, List.map_cons, listed_cons_cons, hsep]
        simp only [String.append_assoc]
      rw [htext, commas_cons_cons]
      exact hcomma

/-- parts in round brackets behind a name, or behind nothing -/
theorem adds_enclosed {name : String} (hn : Scan.Adds name ts)
    (h : ∀ arg ∈ args, ∀ t ∈ arg, IsWholeToken t) :
    Scan.Adds (name ++ "(" ++ listed (args.map spaced) ++ ")")
      (ts ++ "(" :: (commas args ++ [")"])) := by
  have hopen := Scan.Adds.sign (c := '(') rfl hn (adds_listed h)
  have hclose := Scan.Adds.sign (c := ')') rfl hopen .empty
  rw [String.append_empty, List.append_assoc] at hclose
  exact hclose

theorem adds_indexed {target : String} (ht : Scan.Adds target ts)
    (h : ∀ t ∈ inner, IsWholeToken t) :
    Scan.Adds (target ++ "[" ++ spaced inner ++ "]") (ts ++ "[" :: (inner ++ ["]"])) := by
  have hopen := Scan.Adds.sign (c := '[') rfl ht (Scan.adds_spaced h)
  have hclose := Scan.Adds.sign (c := ']') rfl hopen .empty
  rw [String.append_empty, List.append_assoc] at hclose
  exact hclose

theorem unclosed?_commas (h : IsArgumentList args inner)
    (hc : unclosed? ("(" :: (inner ++ [")"])) = none) :
    unclosed? ("(" :: (commas args ++ [")"])) = none := by
  have hpair : ∀ {us}, Bracket.round.depthOver 0 us = some 0 →
      unclosed? ("(" :: (us ++ [")"])) = (unclosed? us).or (unclosed? []) :=
    fun hd => unclosed?_pair hd rfl []
  rw [hpair h.depthOver, h.unclosed?_eq] at hc
  rw [hpair (depthOver_commas h.isArgument), hc]

/-- the closer of an index can be of either kind -/
theorem unclosed?_index {t : String} (hd : Bracket.square.depthOver 0 inner = some 0)
    (ht : Bracket.square.closes t = true) (hc : unclosed? ("[" :: (inner ++ [t])) = none) :
    unclosed? ("[" :: (inner ++ ["]"])) = none := by
  have hpair : ∀ {u}, Bracket.square.closes u = true →
      unclosed? ("[" :: (inner ++ [u])) = (unclosed? inner).or (unclosed? []) :=
    fun hu => unclosed?_pair hd hu []
  rw [hpair ht] at hc
  rw [hpair rfl, hc]

theorem dropBlank_map_spaced (h : ∀ arg ∈ args, ∀ t ∈ arg, IsWholeToken t) :
    (dropBlank args).map spaced = args.map spaced ↔ (args.map spaced).head? ≠ some "" := by
  match args with
  | [] => simp [dropBlank]
  | [] :: args =>
    -- one part is gone
    refine ⟨fun he => ?_, fun hne => absurd rfl hne⟩
    have hlen := congrArg List.length he
    simp [dropBlank] at hlen
  | (t :: ts) :: args =>
    refine ⟨fun _ he => ?_, fun _ => rfl⟩
    have hspaced : spaced (t :: ts) = "" := Option.some.inj he
    have hwhole := h _ List.mem_cons_self
    exact absurd ((spaced_eq_empty hwhole).mp hspaced) (List.cons_ne_nil t ts)

end

/-! ## the text of a shape -/

section
variable {inner : List String} {args : List (List String)}

theorem ofText_of_tokensOf {text : String} {ts : List String} (ht : tokensOf text = ts)
    (hc : unclosed? ts = none) : ofText text = ofTokens ts := by
  rw [ofText, ht, requireClosed, hc]
  rfl

theorem isWholeToken_parts (ts : List String) (h : IsTokenRun (ts ++ "(" :: (inner ++ [")"])))
    (hlist : IsArgumentList args inner) :
    (∀ t ∈ ts, IsWholeToken t) ∧ ∀ arg ∈ args, ∀ t ∈ arg, IsWholeToken t := by
  rw [← List.cons_append, ← List.append_assoc] at h
  have hwhole := h.whole_of_append (List.cons_ne_nil _ _)
  refine ⟨fun t ht => hwhole t (List.mem_append_left _ ht), fun arg ha t ht => ?_⟩
  exact hwhole t (List.mem_append_right _ (List.mem_cons_of_mem _ (hlist.mem_inner ha ht)))

theorem ofText_text_vector (hlist : IsArgumentList args inner)
    (hrun : IsTokenRun ("(" :: (inner ++ [")"]))) (hc : unclosed? ("(" :: (inner ++ [")"])) = none) :
    ofText (vector (args.map spaced)).text = .ok (.vector ((dropBlank args).map spaced)) := by
  obtain ⟨-, hargs⟩ := isWholeToken_parts [] hrun hlist
  have hread := (adds_enclosed .empty hargs).tokensOf
  rw [String.empty_append, List.nil_append] at hread
  rw [text, ofText_of_tokensOf hread (unclosed?_commas hlist hc)]
  exact ofTokens_vector (arguments_commas hlist.isArgument [])

theorem ofText_text_call {name : String} (hn : isIdentifier name = true)
    (hlist : IsArgumentList args inner) (hrun : IsTokenRun (name :: "(" :: (inner ++ [")"])))
    (hc : unclosed? (name :: "(" :: (inner ++ [")"])) = none) :
    ofText (call name (args.map spaced)).text = .ok (.call name ((dropBlank args).map spaced)) := by
  obtain ⟨hname, hargs⟩ := isWholeToken_parts [name] hrun hlist
  have hread := (adds_enclosed (Scan.adds_token (hname name List.mem_cons_self)) hargs).tokensOf
  have hskip := unclosed?_cons_of_none (ofOpener?_of_isIdentifier hn)
  rw [hskip] at hc
  rw [text, ofText_of_tokensOf hread ((hskip _).trans (unclosed?_commas hlist hc))]
  exact ofTokens_call hn (arguments_commas hlist.isArgument [])

theorem ofText_text_index {target t : String} (hn : isIdentifier target = true)
    (hd : Bracket.square.depthOver 0 inner = some 0) (ht : Bracket.square.closes t = true)
    (hrun : IsTokenRun (target :: "[" :: (inner ++ [t])))
    (hc : unclosed? (target :: "[" :: (inner ++ [t])) = none) :
    ofText (index target (spaced inner)).text = .ok (.index target (spaced inner)) := by
  rw [← List.cons_append, ← List.cons_append] at hrun
  obtain ⟨htarget, hwhole⟩ := List.forall_mem_cons.mp (hrun.whole_of_append (List.cons_ne_nil _ _))
  have hinner := (List.forall_mem_cons.mp hwhole).2
  have hread := (adds_indexed (Scan.adds_token htarget) hinner).tokensOf
  have hskip := unclosed?_cons_of_none (ofOpener?_of_isIdentifier hn)
  rw [hskip] at hc
  rw [text, ofText_of_tokensOf hread ((hskip _).trans (unclosed?_index hd ht hc))]
  exact ofTokens_index hn (Bracket.enclosed_eq_some_iff.mpr ⟨"]", rfl, hd, rfl⟩)

end

/-- the text of a shape is read as this shape just if it does not begin with an empty part -/
theorem ofText_text_iff {value : String} {shape : Shape} (h : ofText value = .ok shape) :
    ofText shape.text = .ok shape ↔ shape.firstPart? ≠ some "" := by
  obtain ⟨hclosed, htokens⟩ := ofText_eq_ok.mp h
  have hrun := isTokenRun_tokensOf value
  have hdescribes := describes_of_ofTokens htokens
  generalize tokensOf value = ts at hclosed htokens hrun hdescribes
  have hparts : ∀ {again : Shape}, ofText shape.text = .ok again →
      (again = shape ↔ shape.firstPart? ≠ some "") →
      (ofText shape.text = .ok shape ↔ shape.firstPart? ≠ some "") := fun ha hs => by
    rw [ha, Except.ok.injEq, hs]
  -- a shape without parts is read from the tokens it was read from
  have hsame : tokensOf shape.text = ts → shape.firstPart? = none →
      (ofText shape.text = .ok shape ↔ shape.firstPart? ≠ some "") := fun ht hn =>
    hparts ((ofText_of_tokensOf ht hclosed).trans htokens) (by simp [hn])
  cases hdescribes with
  | empty => exact hsame rfl rfl
  | string literal =>
    have hread := hrun.tokensOf_spaced
    rw [spaced_singleton] at hread
    exact hsame hread rfl
  | plain ts => exact hsame hrun.tokensOf_spaced rfl
  | @vector args inner hlist =>
    obtain ⟨-, hargs⟩ := isWholeToken_parts [] hrun hlist
    refine hparts (ofText_text_vector hlist hrun hclosed) ?_
    rw [Shape.vector.injEq]
    exact dropBlank_map_spaced hargs
  | @call name args inner hn hlist =>
    obtain ⟨-, hargs⟩ := isWholeToken_parts [name] hrun hlist
    refine hparts (ofText_text_call hn hlist hrun hclosed) ?_
    rw [Shape.call.injEq, and_iff_right rfl]
    exact dropBlank_map_spaced hargs
  | @index target inner t hn hd ht =>
    have hnone : (index target (spaced inner)).firstPart? = none := rfl
    exact hparts (ofText_text_index hn hd ht hrun hclosed) (by simp [hnone])

/-- a round closer of an index is written as a square one, and the comma behind an empty argument is
read as one before the first -/
theorem ofText_text_iff_menu :
    (ofText "a[ i )" = .ok (.index "a" "i") ∧
      ofText (index "a" "i").text = .ok (.index "a" "i")) ∧
    (ofText "f(,,\"b)\")" = .ok (.call "f" ["", "\"b)\""]) ∧
      ofText (call "f" ["", "\"b)\""]).text ≠ .ok (.call "f" ["", "\"b)\""])) := by
  have hindex : ofText "a[ i )" = .ok (.index "a" "i") := by
    have htokens : tokensOf "a[ i )" = ["a", "[", "i", ")"] := by decide +kernel
    have he : Bracket.square.enclosed 0 ["i", ")"] = some (["i"], []) := rfl
    rw [ofText_eq_ok, htokens, unclosed?_cons_of_none rfl, unclosed?_cons_of_paired rfl he,
      unclosed?_cons_of_none rfl, unclosed?_nil]
    exact ⟨rfl, ofTokens_index (by decide +kernel) he⟩
  have hcall : ofText "f(,,\"b)\")" = .ok (.call "f" ["", "\"b)\""]) := by
    have htokens : tokensOf "f(,,\"b)\")" = ["f", "(", ",", ",", "\"b)\"", ")"] := by decide +kernel
    have he : Bracket.round.enclosed 0 [",", ",", "\"b)\"", ")"] = some ([",", ",", "\"b)\""], []) :=
      rfl
    have ha : arguments [",", ",", "\"b)\"", ")"] = some ([[], ["\"b)\""]], []) := rfl
    rw [ofText_eq_ok, htokens, unclosed?_cons_of_none rfl, unclosed?_cons_of_paired rfl he,
      unclosed?_cons_of_none rfl, unclosed?_cons_of_none rfl, unclosed?_cons_of_none rfl,
      unclosed?_nil]
    exact ⟨rfl, ofTokens_call (by decide +kernel) ha⟩
  refine ⟨⟨hindex, (ofText_text_iff hindex).mpr (by decide)⟩, hcall, fun h => ?_⟩
  exact (ofText_text_iff hcall).mp h rfl

end Shape
end Markup
