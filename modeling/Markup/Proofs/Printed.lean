import Markup.Bracket
import Markup.Catalog
import Markup.Element
import Markup.Proofs.Line.Sentence

/-!
# Declarations as they are written

`printed` writes element trees and constants as a source: a statement for each constant, property
and variable, and for each element a header, its contents and a closer.

Not all trees can be written.  `Element.IsPrintable` and `Constant.IsPrintable` say which: names are
words, values are tokens with one space between neighbours and with partners for all their brackets,
and the rest is as in a tree that was read.

`Leads` relates what is before the lines of some sentences with what is behind them.
-/

namespace Markup

/-! ## what can be written -/

/-- a value is made of tokens, and its brackets have partners -/
def IsPrintableValue (value : String) : Prop :=
  ∃ ts, (∀ t ∈ ts, IsValueToken t) ∧ unclosed? ts = none ∧ value = spaced ts

structure Constant.IsPrintable (c : Constant) : Prop where
  name : IsWord c.name
  value : IsPrintableValue c.value

/-- a property whose name is not that of another statement -/
structure Property.IsPrintable (p : Property) : Prop where
  name : IsWord p.name
  ne_var : p.name ≠ "var"
  ne_child : p.name ≠ "child"
  value : IsPrintableValue p.value

/-- a child has no variables, and its type tells its kind -/
inductive Element.IsPrintableChild (catalog : Catalog) : Element → Prop
  | mk {typeName : String} {kind : ElementKind} {name? : Option String}
      {properties : List Property} {children : List Element} (hname : IsWord typeName)
      (hkind : kind = .toolkit ↔ catalog.reserves typeName = true)
      (hinstance : ∀ name ∈ name?, IsWord name) (hprops : ∀ p ∈ properties, p.IsPrintable)
      (hchildren : ∀ c ∈ children, c.IsPrintableChild catalog) :
      IsPrintableChild catalog ⟨typeName, kind, name?, properties, [], children⟩

/-- a root is declared by the source, and its variables have different names -/
structure Element.IsPrintable (catalog : Catalog) (e : Element) : Prop where
  typeName : IsWord e.typeName
  not_reserved : catalog.reserves e.typeName = false
  kind : e.kind = .userDefined
  name? : e.name? = none
  properties : ∀ p ∈ e.properties, p.IsPrintable
  vars : ∀ v ∈ e.vars, IsWord v.1 ∧ IsPrintableValue v.2.value
  nodup : (e.vars.map Prod.fst).Nodup
  children : ∀ c ∈ e.children, c.IsPrintableChild catalog

/-! ## how it is written -/

def Constant.sentence (c : Constant) : Sentence := .statement ["const", c.name, "=", c.value]

def Property.sentence (p : Property) : Sentence := .statement [p.name, "=", p.value]

/-- a variable, without a sign if it has no value -/
def variableSentence (v : String × Variable) : Sentence :=
  if v.2.value = "" then .statement ["var", v.1] else .statement ["var", v.1, "=", v.2.value]

mutual

def Element.childSentences : Element → List Sentence
  | ⟨typeName, _, name?, properties, _, children⟩ =>
    .opening ("child" :: typeName :: name?.toList) ::
      (properties.map Property.sentence ++ (Element.sentencesOfChildren children ++ [.closing]))

def Element.sentencesOfChildren : List Element → List Sentence
  | [] => []
  | c :: cs => c.childSentences ++ Element.sentencesOfChildren cs

end

/-- the lines of a root behind its header -/
def Element.bodySentences (e : Element) : List Sentence :=
  e.vars.map variableSentence ++
    (e.properties.map Property.sentence ++ Element.sentencesOfChildren e.children)

def Element.sentences (e : Element) : List Sentence :=
  .opening ["element", e.typeName] :: (e.bodySentences ++ [.closing])

/-- constants and roots as a source -/
def printed (roots : List Element) (constants : List Constant) : String :=
  Sentence.source (constants.map Constant.sentence ++ roots.flatMap Element.sentences)

example :
    printed
      [⟨"Menu", .userDefined, none, [⟨"size", "( 2 * w )"⟩], [("w", ⟨"", .unresolved⟩)],
        [⟨"UIBox", .toolkit, some "top", [⟨"text", "\"a;b\""⟩], [], []⟩]⟩] [⟨"W", "3"⟩] =
      "const W = 3;\nelement Menu \x7b\nvar w;\nsize = ( 2 * w );\n" ++
        "child UIBox top \x7b\ntext = \"a;b\";\n\x7d\n\x7d\n" := by
  decide

/-! ## its tokens -/

theorem isValueToken_equals : IsValueToken "=" := .operator ⟨'=', by decide, rfl⟩

theorem IsPrintableValue.isTokenText {value : String} (h : IsPrintableValue value) :
    IsTokenText value := by
  obtain ⟨ts, hts, _, hv⟩ := h
  exact ⟨ts, hts, hv⟩

theorem IsPrintableValue.tokens {value : String} (h : IsPrintableValue value) :
    (∀ t ∈ tokensOf value, IsValueToken t) ∧ unclosed? (tokensOf value) = none ∧
      spaced (tokensOf value) = value := by
  obtain ⟨ts, hts, hu, rfl⟩ := h
  rw [tokensOf_spaced hts]
  exact ⟨hts, hu, rfl⟩

theorem IsPrintableValue.takeWhile {value : String} (h : IsPrintableValue value)
    {p : String → Bool} (hp : ∀ t, IsTextToken t → p t = true) :
    (tokensOf value).takeWhile p = tokensOf value := by
  have hall : (tokensOf value ++ []).takeWhile p = tokensOf value ++ [].takeWhile p :=
    List.takeWhile_append_of_pos fun t ht => hp t (h.tokens.1 t ht).isTextToken
  rwa [List.append_nil, List.takeWhile_nil, List.append_nil] at hall

theorem IsWord.tokensOf {w : String} (h : IsWord w) : tokensOf w = [w] :=
  tokensOf_token (.word h)

theorem IsWord.isTokenText {w : String} (h : IsWord w) : IsTokenText w :=
  isTokenText_of_token (.word h)

theorem flatMap_tokensOf {ws : List String} (h : ∀ w ∈ ws, IsWord w) : ws.flatMap tokensOf = ws := by
  induction ws with
  | nil => rfl
  | cons w ws ih =>
    obtain ⟨hw, hws⟩ := List.forall_mem_cons.mp h
    rw [List.flatMap_cons, hw.tokensOf, ih hws]
    rfl

theorem Sentence.assignment {ws : List String} {value : String} (hws : ∀ w ∈ ws, IsWord w)
    (hv : IsPrintableValue value) :
    (statement (ws ++ ["=", value])).IsSound ∧
      (statement (ws ++ ["=", value])).tokens = ws ++ "=" :: tokensOf value := by
  have htokens : (ws ++ ["=", value]).flatMap Markup.tokensOf = ws ++ "=" :: tokensOf value := by
    rw [List.flatMap_append, flatMap_tokensOf hws, List.flatMap_cons,
      tokensOf_token isValueToken_equals, List.flatMap_singleton]
    rfl
  refine ⟨⟨fun p hp => ?_, ?_⟩, htokens⟩
  · rcases List.mem_append.mp hp with hp | hp
    · exact (hws p hp).isTokenText
    · rcases List.mem_cons.mp hp with rfl | hp
      · exact isTokenText_of_token isValueToken_equals
      · rw [List.mem_singleton.mp hp]
        exact hv.isTokenText
  · rw [htokens]
    exact List.append_ne_nil_of_right_ne_nil _ (List.cons_ne_nil _ _)

theorem Sentence.header {ws : List String} (hws : ∀ w ∈ ws, IsWord w) :
    (opening ws).IsSound ∧ (opening ws).tokens = ws ++ [blockOpen] := by
  refine ⟨fun p hp => (hws p hp).isTokenText, ?_⟩
  show ws.flatMap Markup.tokensOf ++ [blockOpen] = _
  rw [flatMap_tokensOf hws]

theorem Constant.IsPrintable.sentence {c : Constant} (h : c.IsPrintable) :
    c.sentence.IsSound ∧ c.sentence.tokens = "const" :: c.name :: "=" :: tokensOf c.value := by
  have hws : ∀ w ∈ ["const", c.name], IsWord w :=
    List.forall_mem_cons.mpr ⟨by decide, List.forall_mem_singleton.mpr h.name⟩
  exact Sentence.assignment hws h.value

theorem Property.IsPrintable.sentence {p : Property} (h : p.IsPrintable) :
    p.sentence.IsSound ∧ p.sentence.tokens = p.name :: "=" :: tokensOf p.value := by
  have hws : ∀ w ∈ [p.name], IsWord w := List.forall_mem_singleton.mpr h.name
  exact Sentence.assignment hws h.value

theorem variableSentence_tokens {v : String × Variable} (hn : IsWord v.1)
    (hv : IsPrintableValue v.2.value) :
    (variableSentence v).IsSound ∧ (variableSentence v).tokens =
      "var" :: v.1 :: if v.2.value = "" then [] else "=" :: tokensOf v.2.value := by
  have hws : ∀ w ∈ ["var", v.1], IsWord w :=
    List.forall_mem_cons.mpr ⟨by decide, List.forall_mem_singleton.mpr hn⟩
  unfold variableSentence
  by_cases h : v.2.value = ""
  · rw [if_pos h, if_pos h]
    have htokens : ["var", v.1].flatMap tokensOf = ["var", v.1] := flatMap_tokensOf hws
    refine ⟨⟨fun p hp => (hws p hp).isTokenText, ?_⟩, htokens⟩
    rw [htokens]
    exact List.cons_ne_nil _ _
  · rw [if_neg h, if_neg h]
    exact Sentence.assignment hws hv

theorem childHeader_tokens {typeName : String} {name? : Option String} (hn : IsWord typeName)
    (hi : ∀ name ∈ name?, IsWord name) :
    (Sentence.opening ("child" :: typeName :: name?.toList)).IsSound ∧
      (Sentence.opening ("child" :: typeName :: name?.toList)).tokens =
        "child" :: typeName :: (name?.toList ++ [blockOpen]) :=
  Sentence.header (List.forall_mem_cons.mpr ⟨by decide, List.forall_mem_cons.mpr
    ⟨hn, fun w hw => hi w (Option.mem_toList.mp hw)⟩⟩)

theorem elementHeader_tokens {typeName : String} (hn : IsWord typeName) :
    (Sentence.opening ["element", typeName]).IsSound ∧
      (Sentence.opening ["element", typeName]).tokens = ["element", typeName, blockOpen] :=
  Sentence.header (List.forall_mem_cons.mpr ⟨by decide, List.forall_mem_singleton.mpr hn⟩)

/-! ## all sentences are sound -/

variable {catalog : Catalog}

theorem isSound_properties {ps : List Property} (h : ∀ p ∈ ps, p.IsPrintable) :
    ∀ s ∈ ps.map Property.sentence, s.IsSound := by
  intro s hs
  obtain ⟨p, hp, rfl⟩ := List.mem_map.mp hs
  exact (h p hp).sentence.1

mutual

theorem Element.isSound_childSentences (c : Element) (h : c.IsPrintableChild catalog) :
    ∀ s ∈ c.childSentences, s.IsSound := by
  match c, h with
  | ⟨typeName, kind, name?, properties, _, children⟩, .mk hname _ hinstance hprops hchildren =>
    rw [childSentences]
    refine List.forall_mem_cons.mpr ⟨(childHeader_tokens hname hinstance).1, ?_⟩
    refine List.forall_mem_append.mpr ⟨isSound_properties hprops, ?_⟩
    exact List.forall_mem_append.mpr
      ⟨isSound_sentencesOfChildren children hchildren, List.forall_mem_singleton.mpr trivial⟩

theorem Element.isSound_sentencesOfChildren (cs : List Element)
    (h : ∀ c ∈ cs, c.IsPrintableChild catalog) :
    ∀ s ∈ sentencesOfChildren cs, s.IsSound := by
  match cs with
  | [] =>
    rw [sentencesOfChildren]
    exact fun s hs => absurd hs List.not_mem_nil
  | c :: cs =>
    obtain ⟨hc, hcs⟩ := List.forall_mem_cons.mp h
    rw [sentencesOfChildren]
    exact List.forall_mem_append.mpr
      ⟨isSound_childSentences c hc, isSound_sentencesOfChildren cs hcs⟩

end

theorem Element.IsPrintable.isSound {e : Element} (h : e.IsPrintable catalog) :
    ∀ s ∈ e.sentences, s.IsSound := by
  refine List.forall_mem_cons.mpr ⟨(elementHeader_tokens h.typeName).1, ?_⟩
  refine List.forall_mem_append.mpr ⟨List.forall_mem_append.mpr ⟨fun s hs => ?_,
    List.forall_mem_append.mpr ⟨isSound_properties h.properties,
      isSound_sentencesOfChildren e.children h.children⟩⟩, List.forall_mem_singleton.mpr trivial⟩
  obtain ⟨v, hv, rfl⟩ := List.mem_map.mp hs
  exact (variableSentence_tokens (h.vars v hv).1 (h.vars v hv).2).1

/-- a source of printable declarations is read as its sentences -/
theorem ofSource_printed {roots : List Element} {constants : List Constant}
    (hr : ∀ e ∈ roots, e.IsPrintable catalog) (hc : ∀ c ∈ constants, c.IsPrintable) :
    (Line.ofSource (printed roots constants)).map Line.tokens =
      (constants.map Constant.sentence ++ roots.flatMap Element.sentences).map Sentence.tokens := by
  refine Sentence.ofSource_source (List.forall_mem_append.mpr ⟨fun s hs => ?_, fun s hs => ?_⟩)
  · obtain ⟨c, hm, rfl⟩ := List.mem_map.mp hs
    exact (hc c hm).sentence.1
  · obtain ⟨e, hm, hs⟩ := List.mem_flatMap.mp hs
    exact (hr e hm).isSound s hs

/-! ## lines and sentences -/

/-- lines that are read from these sentences -/
def Spells (lines : List Line) (ss : List Sentence) : Prop :=
  lines.map Line.tokens = ss.map Sentence.tokens

theorem Spells.of_cons {lines : List Line} {s : Sentence} {ss : List Sentence}
    (h : Spells lines (s :: ss)) :
    ∃ line rest, lines = line :: rest ∧ line.tokens = s.tokens ∧ Spells rest ss :=
  List.map_eq_cons_iff.mp h

theorem Spells.of_append {lines : List Line} {ss ss' : List Sentence}
    (h : Spells lines (ss ++ ss')) :
    ∃ ls ls', lines = ls ++ ls' ∧ Spells ls ss ∧ Spells ls' ss' := by
  unfold Spells at h
  rw [List.map_append] at h
  exact List.map_eq_append_iff.mp h

section
variable {α : Type} {R : α → α → Prop} {f g k : Nat → List Line → α} {ss ss' : List Sentence}

/-- whatever lines follow, `f` before the lines of these sentences is related to `g` behind them -/
def Leads (R : α → α → Prop) (ss : List Sentence) (f g : Nat → List Line → α) : Prop :=
  ∀ lines, Spells lines ss → ∀ index rest, R (f index (lines ++ rest)) (g (index + lines.length) rest)

theorem leads_nil (hR : ∀ a, R a a) (f : Nat → List Line → α) : Leads R [] f f := by
  intro lines hl index rest
  obtain rfl : lines = [] := List.map_eq_nil_iff.mp hl
  exact hR _

variable (hR : ∀ {a b c}, R a b → R b c → R a c)
include hR

theorem Leads.append (h : Leads R ss f g) (h' : Leads R ss' g k) : Leads R (ss ++ ss') f k := by
  intro lines hl index rest
  obtain ⟨ls, ls', rfl, hs, hs'⟩ := hl.of_append
  rw [List.append_assoc, List.length_append, ← Nat.add_assoc]
  exact hR (h ls hs index (ls' ++ rest)) (h' ls' hs' _ rest)

theorem Leads.cons {s : Sentence}
    (h : ∀ line : Line, line.tokens = s.tokens → ∀ index rest,
      R (f index (line :: rest)) (g (index + 1) rest))
    (h' : Leads R ss g k) : Leads R (s :: ss) f k := by
  intro lines hl index rest
  obtain ⟨line, ls, rfl, ht, hls⟩ := hl.of_cons
  have hi : index + (line :: ls).length = index + 1 + ls.length := by
    rw [List.length_cons]
    omega
  rw [List.cons_append, hi]
  exact hR (h line ht index (ls ++ rest)) (h' ls hls _ rest)

end

end Markup
