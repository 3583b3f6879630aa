import Markup.Proofs.Block.Machine
import Markup.Proofs.Printed

/-!
# Reading a block that was written

The machine that reads the lines of a printed element puts the element together again: a statement
adds what it states, and the lines of a child add the child (`Machine.turns_child`).  `Machine.Turns`
says what some sentences do to the open blocks, whatever lines follow.
-/

namespace Markup

/-! ## elements -/

theorem Element.addVariable_of_new (e : Element) {v : String × Variable}
    (h : v.1 ∉ e.vars.map Prod.fst) :
    e.addVariable v.1 v.2 = { e with vars := e.vars ++ [v] } := by
  have hnone : e.lookupVariable v.1 = none := by
    rw [Element.lookupVariable, List.lookup_eq_none_iff]
    exact fun w hw => bne_iff_ne.mpr fun he => h (List.mem_map.mpr ⟨w, hw, he.symm⟩)
  rw [Element.addVariable, hnone]
  rfl

theorem Element.ofHeader_eq {catalog : Catalog} {typeName : String} {kind : ElementKind}
    (h : kind = .toolkit ↔ catalog.reserves typeName = true) (name? : Option String) :
    Element.ofHeader catalog typeName name? = ⟨typeName, kind, name?, [], [], []⟩ := by
  have hkind : (if catalog.reserves typeName then .toolkit else .userDefined) = kind := by
    by_cases hr : catalog.reserves typeName = true
    · rw [if_pos hr, h.mpr hr]
    · rw [if_neg hr]
      cases kind with
      | toolkit => exact absurd (h.mp rfl) hr
      | userDefined => rfl
  rw [Element.ofHeader, hkind]
  rfl

/-! ## statements -/

namespace Statement

variable {line : Line}

theorem withValue_tokensOf {value : String} (h : IsPrintableValue value) (n : Nat)
    (f : String → Statement) : withValue n (tokensOf value) f = f value := by
  obtain ⟨_, hu, hv⟩ := h.tokens
  have htake : (tokensOf value).takeWhile (· != blockOpen) = tokensOf value :=
    h.takeWhile fun t ht => bne_iff_ne.mpr ht.ne_blockOpen
  rw [withValue, requireClosed, hu, htake, hv]

theorem ofLine_property {p : Property} (h : p.IsPrintable) (ht : line.tokens = p.sentence.tokens)
    (isRoot : Bool) : ofLine isRoot line = property p.name p.value := by
  rw [h.sentence.2] at ht
  have hf : line.first = p.name := by rw [Line.first, Line.token, ht]; rfl
  have h1 : line.token 1 = "=" := by rw [Line.token, ht]; rfl
  have hopen : p.name ≠ blockOpen := h.name.isTextToken.ne_blockOpen
  rw [ofLine, hf, if_neg hopen, if_neg h.ne_var, if_neg h.ne_child, propertyOfLine]
  simp only [hf, h1, if_true]
  rw [ht]
  exact withValue_tokensOf h.value _ _

theorem ofLine_variable {v : String × Variable} (hn : IsWord v.1) (hv : IsPrintableValue v.2.value)
    (ht : line.tokens = (variableSentence v).tokens) :
    ofLine true line = declareVariable v.1 v.2.value := by
  rw [(variableSentence_tokens hn hv).2] at ht
  have hf : line.first = "var" := by rw [Line.first, Line.token, ht]; rfl
  have h1 : line.token 1 = v.1 := by rw [Line.token, ht]; rfl
  rw [ofLine, hf, if_neg (by decide), if_pos rfl, variableOfLine]
  simp only [h1, if_neg hn.not_missing]
  by_cases he : v.2.value = ""
  · rw [if_pos he] at ht
    have h2 : line.token 2 = "" := by rw [Line.token, ht]; rfl
    rw [h2, he]
    rfl
  · rw [if_neg he] at ht
    have h2 : line.token 2 = "=" := by rw [Line.token, ht]; rfl
    rw [h2, ht]
    exact withValue_tokensOf hv _ _

theorem ofLine_child {typeName : String} {name? : Option String} (hn : IsWord typeName)
    (hi : ∀ name ∈ name?, IsWord name)
    (ht : line.tokens = (Sentence.opening ("child" :: typeName :: name?.toList)).tokens)
    (isRoot : Bool) : ofLine isRoot line = child typeName name? false := by
  rw [(childHeader_tokens hn hi).2] at ht
  have hf : line.first = "child" := by rw [Line.first, Line.token, ht]; rfl
  have h1 : line.token 1 = typeName := by rw [Line.token, ht]; rfl
  rw [ofLine, hf, if_neg (by decide), if_neg (by decide), if_pos rfl, childOfLine]
  simp only [h1, if_neg hn.not_missing]
  cases name? with
  | none =>
    have h2 : line.token 2 = blockOpen := by rw [Line.token, ht]; rfl
    rw [h2, if_pos (Or.inr rfl), childBefore, if_pos rfl]
  | some name =>
    have h2 : line.token 2 = name := by rw [Line.token, ht]; rfl
    have h3 : line.token 3 = blockOpen := by rw [Line.token, ht]; rfl
    rw [h2, h3, if_neg (hi name rfl).not_missing, childBefore, if_pos rfl]

end Statement

/-! ## the machine -/

namespace Machine

variable {catalog : Catalog} {outer? : Option BlockStack}

/-- the lines of these sentences lead from some open blocks to others, without a report -/
def Turns (catalog : Catalog) (ss : List Sentence) (stack stack' : BlockStack) : Prop :=
  Leads Traced.Agrees ss (run catalog ⟨stack, none⟩) (run catalog ⟨stack', none⟩)

theorem turns_nil (stack : BlockStack) : Turns catalog [] stack stack :=
  leads_nil Traced.Agrees.refl _

theorem Turns.append {ss ss' : List Sentence} {s t u : BlockStack} (h : Turns catalog ss s t)
    (h' : Turns catalog ss' t u) : Turns catalog (ss ++ ss') s u :=
  Leads.append Traced.Agrees.trans h h'

theorem Turns.cons {sentence : Sentence} {ss : List Sentence} {s t u : BlockStack}
    (h : ∀ line : Line, line.tokens = sentence.tokens →
      step catalog ⟨s, none⟩ line = .go none ⟨t, none⟩)
    (h' : Turns catalog ss t u) : Turns catalog (sentence :: ss) s u := by
  refine Leads.cons (R := Traced.Agrees) Traced.Agrees.trans (fun line ht index rest => ?_) h'
  exact run_cons_agrees catalog (h line ht) index rest

variable (catalog outer?) in
/-- a statement acts in the innermost block and leaves it open -/
theorem step_statement {sentence : Sentence} (hs : sentence.IsSound) (hc : sentence.closes = false)
    {line : Line} (ht : line.tokens = sentence.tokens) (e : Element) :
    step catalog ⟨scope outer? e, none⟩ line =
        actIn catalog outer?.isNone e (scope outer?) line ∧
      (sentence.opens = false → ∀ stack : BlockStack, stack.opening line = stack) := by
  have hscan := Sentence.isScanned hs ht
  refine ⟨step_scope ?_ e, fun ho stack => if_neg ?_⟩
  · rw [← hscan.closes_eq, Sentence.closes_eq hs ht, hc]
    exact Bool.false_ne_true
  · rw [← hscan.opens_eq, Sentence.opens_eq hs ht, ho]
    exact Bool.false_ne_true

theorem step_property {p : Property} (h : p.IsPrintable) {line : Line}
    (ht : line.tokens = p.sentence.tokens) (e : Element) :
    step catalog ⟨scope outer? e, none⟩ line =
      .go none ⟨scope outer? (e.addProperty p), none⟩ := by
  obtain ⟨hstep, hopening⟩ := step_statement catalog outer? h.sentence.1 rfl ht e
  rw [hstep, actIn, Statement.ofLine_property h ht]
  simp only [hopening rfl]

theorem step_variable {v : String × Variable} (hn : IsWord v.1) (hv : IsPrintableValue v.2.value)
    {line : Line} (ht : line.tokens = (variableSentence v).tokens) (e : Element) :
    step catalog ⟨scope none e, none⟩ line =
      .go none ⟨scope none (e.addVariable v.1 v.2), none⟩ := by
  have hbraces : (variableSentence v).closes = false ∧ (variableSentence v).opens = false := by
    unfold variableSentence
    split <;> exact ⟨rfl, rfl⟩
  obtain ⟨hstep, hopening⟩ := step_statement catalog none (variableSentence_tokens hn hv).1
    hbraces.1 ht e
  have hof : Statement.ofLine (none : Option BlockStack).isNone line =
      .declareVariable v.1 v.2.value := Statement.ofLine_variable hn hv ht
  rw [hstep, actIn, hof]
  simp only [hopening hbraces.2]

theorem step_child {typeName : String} {name? : Option String} (hn : IsWord typeName)
    (hi : ∀ name ∈ name?, IsWord name) {line : Line}
    (ht : line.tokens = (Sentence.opening ("child" :: typeName :: name?.toList)).tokens)
    (e : Element) :
    step catalog ⟨scope outer? e, none⟩ line =
      .go none ⟨scope (some (scope outer? e)) (.ofHeader catalog typeName name?), none⟩ := by
  rw [(step_statement catalog outer? (childHeader_tokens hn hi).1 rfl ht e).1, actIn,
    Statement.ofLine_child hn hi ht]
  rfl

/-! ### the parts of an element -/

theorem turns_properties {ps : List Property} (h : ∀ p ∈ ps, p.IsPrintable) (e : Element) :
    Turns catalog (ps.map Property.sentence) (scope outer? e)
      (scope outer? { e with properties := e.properties ++ ps }) := by
  induction ps generalizing e with
  | nil =>
    rw [List.append_nil]
    cases e
    exact turns_nil _
  | cons p ps ih =>
    obtain ⟨hp, hps⟩ := List.forall_mem_cons.mp h
    rw [List.append_cons]
    exact Turns.cons (fun line ht => step_property hp ht e) (ih hps (e.addProperty p))

theorem turns_variables {vs : List (String × Variable)}
    (h : ∀ v ∈ vs, IsWord v.1 ∧ IsPrintableValue v.2.value) (e : Element)
    (hd : ((e.vars ++ vs).map Prod.fst).Nodup) :
    Turns catalog (vs.map variableSentence) (scope none e)
      (scope none { e with vars := e.vars ++ vs }) := by
  induction vs generalizing e with
  | nil =>
    rw [List.append_nil]
    cases e
    exact turns_nil _
  | cons v vs ih =>
    obtain ⟨hv, hvs⟩ := List.forall_mem_cons.mp h
    have hnew : v.1 ∉ e.vars.map Prod.fst := by
      rw [List.map_append, List.map_cons] at hd
      exact fun hm => (List.nodup_append.mp hd).2.2 _ hm _ List.mem_cons_self rfl
    rw [List.append_cons] at hd ⊢
    refine Turns.cons (fun line ht => step_variable hv.1 hv.2 ht e) ?_
    rw [e.addVariable_of_new hnew]
    exact ih hvs { e with vars := e.vars ++ [v] } hd

mutual

/-- the lines of a child add the child to the element of the innermost block -/
theorem turns_child (c : Element) (h : c.IsPrintableChild catalog) (outer? : Option BlockStack)
    (e : Element) :
    Turns catalog c.childSentences (scope outer? e) (scope outer? (e.addChild c)) := by
  match c, h with
  | ⟨typeName, kind, name?, properties, _, children⟩, .mk hname hkind hinstance hprops hchildren =>
    have hof : Element.ofHeader catalog typeName name? = ⟨typeName, kind, name?, [], [], []⟩ :=
      Element.ofHeader_eq hkind name?
    rw [Element.childSentences]
    refine Turns.cons (fun line ht => step_child hname hinstance ht e) ?_
    rw [hof]
    refine (turns_properties hprops _).append ?_
    refine (turns_children children hchildren _ _).append ?_
    refine Turns.cons (fun line ht => ?_) (turns_nil _)
    have hc : line.isLoneClose = true := by
      rw [Line.isLoneClose, ht]
      rfl
    rw [← addChild_scope]
    exact if_pos hc

theorem turns_children (cs : List Element) (h : ∀ c ∈ cs, c.IsPrintableChild catalog)
    (outer? : Option BlockStack) (e : Element) :
    Turns catalog (Element.sentencesOfChildren cs) (scope outer? e)
      (scope outer? { e with children := e.children ++ cs }) := by
  match cs with
  | [] =>
    rw [Element.sentencesOfChildren, List.append_nil]
    cases e
    exact turns_nil _
  | c :: cs =>
    obtain ⟨hc, hcs⟩ := List.forall_mem_cons.mp h
    rw [Element.sentencesOfChildren, List.append_cons]
    exact (turns_child c hc outer? e).append (turns_children cs hcs outer? (e.addChild c))

end

/-- the machine reads a printed root from the lines behind its header -/
theorem run_printed {e : Element} (h : e.IsPrintable catalog) {lines : List Line}
    (hl : Spells lines e.bodySentences) {closer : Line} (hc : closer.tokens = [blockClose])
    (index : Nat) (rest : List Line) :
    (run catalog ⟨.root (.bare e.typeName .userDefined), none⟩ index
      (lines ++ closer :: rest)).Agrees (.pure e) := by
  have hbody : Turns catalog e.bodySentences (scope none (.bare e.typeName .userDefined))
      (scope none e) := by
    have hvars : Turns catalog _ _ _ :=
      turns_variables h.vars (.bare e.typeName .userDefined) h.nodup
    have hprops : Turns catalog _ (scope none _) _ := turns_properties h.properties
      { Element.bare e.typeName .userDefined with vars := e.vars }
    have hchildren := turns_children e.children h.children none
      { Element.bare e.typeName .userDefined with vars := e.vars, properties := e.properties }
    have he : e = { Element.bare e.typeName .userDefined with
        vars := e.vars, properties := e.properties, children := e.children } := by
      obtain ⟨typeName, kind, name?, properties, vars, children⟩ := e
      obtain rfl : kind = .userDefined := h.kind
      obtain rfl : name? = none := h.name?
      rfl
    have hturns := hvars.append (hprops.append hchildren)
    rw [he]
    exact hturns
  refine (hbody lines hl index (closer :: rest)).trans ?_
  have hlone : closer.isLoneClose = true := by
    rw [Line.isLoneClose, hc]
    rfl
  have hstep : step catalog ⟨scope none e, none⟩ closer = .closed e := if_pos hlone
  rw [run, hstep]
  exact (Traced.isAnchored_pure e).after_line_agrees _

end Machine

/-- the element of a header with the lines of a printed root behind it -/
theorem Header.build_printed {catalog : Catalog} {e : Element} (he : e.IsPrintable catalog)
    {source : List Line} (hs : ∀ line ∈ source, line.IsScanned) {h : Header}
    (hname : h.name = e.typeName) {lines rest : List Line} {closer : Line}
    (hl : Spells lines e.bodySentences) (hc : closer.tokens = [blockClose])
    (hd : source.drop (h.start + 1) = lines ++ closer :: rest) :
    (h.build catalog source).Agrees (.pure ⟨e, h.file⟩) := by
  refine (Header.build_agrees_machine catalog hs h).trans ?_
  rw [Machine.build, Machine.start, hd, hname]
  refine (Traced.Agrees.bind_left (Machine.run_printed he hl hc _ rest) fun root =>
    Traced.isAnchored_pure _).trans ?_
  exact Traced.Agrees.refl _

end Markup
