import Markup.Block
import Markup.Proofs.Line.Reread
import Markup.Proofs.Outline.Entry
import Markup.Proofs.Shape
import Markup.Proofs.Statement

/-!
# Parts of a tree and the lines that state them

The parts of an element tree are its properties, variables and children, at any depth.  Each of them
is stated on one line of a source: `Line.States` says how, and of a value that the tokens of its text
are the tokens behind the equals sign (`Captures`).

* `Element.parts`       the parts of a tree;
* `states_property`, `states_variable`, `states_child`, `states_constant`
                        the line of a statement or of a constant states what is read from it.
-/

namespace Markup

/-! ## parts -/

/-- something that is stated in the block of an element -/
inductive Part where
  | property (p : Property)
  | var (name : String) (v : Variable)
  | child (typeName : String) (kind : ElementKind) (name? : Option String)
  deriving DecidableEq, Repr

def Part.value? : Part → Option String
  | property p => some p.value
  | var _ v => some v.value
  | child _ _ _ => none

namespace Element

mutual

/-- the parts of an element and of the elements in it -/
def parts : Element → List Part
  | ⟨_, _, _, properties, vars, children⟩ =>
    properties.map .property ++ vars.map (fun x => .var x.1 x.2) ++ childParts children

def childParts : List Element → List Part
  | [] => []
  | e :: es => .child e.typeName e.kind e.name? :: parts e ++ childParts es

end

theorem childParts_append (es es' : List Element) :
    childParts (es ++ es') = childParts es ++ childParts es' := by
  induction es with
  | nil => rfl
  | cons e es ih => rw [List.cons_append, childParts, childParts, ih, List.append_assoc]

theorem parts_bare (typeName : String) (kind : ElementKind) : (bare typeName kind).parts = [] := rfl

theorem parts_ofHeader (catalog : Catalog) (typeName : String) (name? : Option String) :
    (ofHeader catalog typeName name?).parts = [] := rfl

theorem parts_addProperty (e : Element) (p : Property) :
    (e.addProperty p).parts.Perm (e.parts ++ [.property p]) := by
  obtain ⟨t, k, n, ps, vs, cs⟩ := e
  show ((ps ++ [p]).map Part.property ++ _ ++ childParts cs).Perm
    (ps.map Part.property ++ _ ++ childParts cs ++ [.property p])
  have hp : ∀ rest, ([Part.property p] ++ rest).Perm (rest ++ [Part.property p]) :=
    fun _ => List.perm_append_comm
  rw [List.map_append, List.append_assoc, List.append_assoc, List.append_assoc, List.append_assoc,
    ← List.append_assoc (vs.map _)]
  exact (hp _).append_left _

theorem parts_addVariable {e : Element} {name : String} (h : e.lookupVariable name = none)
    (v : Variable) : (e.addVariable name v).parts.Perm (e.parts ++ [.var name v]) := by
  rw [addVariable, h, if_neg (by simp)]
  obtain ⟨t, k, n, ps, vs, cs⟩ := e
  show (_ ++ (vs ++ [(name, v)]).map (fun x => Part.var x.1 x.2) ++ childParts cs).Perm
    (_ ++ vs.map (fun x => Part.var x.1 x.2) ++ childParts cs ++ [.var name v])
  have hp : ∀ rest, ([Part.var name v] ++ rest).Perm (rest ++ [Part.var name v]) :=
    fun _ => List.perm_append_comm
  rw [List.map_append, ← List.append_assoc, List.append_assoc, List.append_assoc _ _ [_]]
  exact (hp _).append_left _

theorem parts_addChild (e c : Element) :
    (e.addChild c).parts = e.parts ++ .child c.typeName c.kind c.name? :: c.parts := by
  obtain ⟨t, k, n, ps, vs, cs⟩ := e
  have hc : childParts [c] = .child c.typeName c.kind c.name? :: c.parts := by
    rw [childParts, childParts, List.append_nil]
  show _ ++ childParts (cs ++ [c]) = _ ++ childParts cs ++ _
  rw [childParts_append, hc, ← List.append_assoc]

theorem var_mem_parts {e : Element} {name : String} (h : (e.lookupVariable name).isSome = true) :
    ∃ v, .var name v ∈ e.parts := by
  obtain ⟨v, hv⟩ := Option.isSome_iff_exists.mp h
  obtain ⟨t, k, n, ps, vs, cs⟩ := e
  obtain ⟨l₁, l₂, hl, _⟩ := List.lookup_eq_some_iff.mp hv
  refine ⟨v, List.mem_append_left _ (List.mem_append_right _ (List.mem_map.mpr ⟨(name, v), ?_, rfl⟩))⟩
  show (name, v) ∈ vs
  rw [show vs = l₁ ++ (name, v) :: l₂ from hl]
  exact List.mem_append_right _ List.mem_cons_self

mutual

/-- the values in a listing are those of properties -/
theorem exists_property_of_mem_values (e : Element) {value : String} (h : value ∈ e.values) :
    ∃ p : Property, .property p ∈ e.parts ∧ p.value = value := by
  obtain ⟨t, k, n, ps, vs, cs⟩ := e
  rcases List.mem_append.mp h with h | h
  · obtain ⟨p, hp, rfl⟩ := List.mem_map.mp h
    exact ⟨p, List.mem_append_left _ (List.mem_append_left _ (List.mem_map_of_mem hp)), rfl⟩
  · obtain ⟨p, hp, hv⟩ := exists_property_of_mem_childValues cs h
    exact ⟨p, List.mem_append_right _ hp, hv⟩

theorem exists_property_of_mem_childValues (es : List Element) {value : String}
    (h : value ∈ childValues es) : ∃ p : Property, .property p ∈ childParts es ∧ p.value = value := by
  match es with
  | [] => exact absurd h List.not_mem_nil
  | e :: es =>
    rcases List.mem_append.mp h with h | h
    · obtain ⟨p, hp, hv⟩ := exists_property_of_mem_values e h
      exact ⟨p, List.mem_append_left _ (List.mem_cons_of_mem _ hp), hv⟩
    · obtain ⟨p, hp, hv⟩ := exists_property_of_mem_childValues es h
      exact ⟨p, List.mem_append_right _ hp, hv⟩

end

end Element

/-! ## values -/

/-- the text of a value is read as these tokens, and has a shape -/
structure Captures (value : String) (tokens : List String) : Prop where
  tokens : tokensOf value = tokens
  shape : ∃ shape, Shape.ofText value = .ok shape

theorem captures_empty : Captures "" [] := by
  have hu : unclosed? (tokensOf "") = none := unclosed?_nil
  exact ⟨rfl, Shape.exists_ofText hu⟩

theorem IsTail.captures {ts : List String} (h : IsTail ts) (hu : unclosed? ts = none) :
    Captures (spaced ts) ts := by
  have ht := h.tokensOf_spaced
  refine ⟨ht, Shape.exists_ofText ?_⟩
  rw [ht]
  exact hu

/-- the bracket check sees the opener at the end of a line too, and it does not matter there -/
theorem IsTail.captures_takeWhile {ts : List String} (h : IsTail ts) (hu : unclosed? ts = none) :
    Captures (spaced (ts.takeWhile (· != blockOpen))) (ts.takeWhile (· != blockOpen)) := by
  obtain ⟨hi, he⟩ := h.takeWhile
  refine hi.captures ?_
  unfold openerOf at he
  split at he
  · rw [he, unclosed?_concat Bracket.isNeutral_blockOpen] at hu
    exact hu
  · rw [List.append_nil] at he
    rw [← he]
    exact hu

/-! ## lines -/

namespace Line

variable {line : Line}

/-- the tokens of a line without an opener at its end -/
def statement (line : Line) : List String :=
  if line.endsOpen then line.tokens.dropLast else line.tokens

/-- the line states this part of an element -/
inductive States (catalog : Catalog) (line : Line) : Part → Prop
  | property {p : Property} {value : List String} (h : line.statement = p.name :: "=" :: value)
      (hv : Captures p.value value) : States catalog line (.property p)
  | initialised {name : String} {v : Variable} {value : List String}
      (h : line.statement = "var" :: name :: "=" :: value) (hv : Captures v.value value) :
      States catalog line (.var name v)
  | bare {name : String} {v : Variable} (h : line.statement = ["var", name])
      (hv : Captures v.value []) : States catalog line (.var name v)
  | child {typeName : String} {name? : Option String}
      (h : line.statement = "child" :: typeName :: name?.toList) :
      States catalog line (.child typeName
        (if catalog.reserves typeName then .toolkit else .userDefined) name?)

/-- the line states this constant, the value of which reaches to the end of the line -/
def StatesConstant (line : Line) (c : Constant) : Prop :=
  ∃ value, line.tokens = "const" :: c.name :: "=" :: value ∧ Captures c.value value

/-- the line declares the element -/
structure StatesElement (line : Line) (e : Element) : Prop where
  statement : line.statement = ["element", e.typeName]
  opens : line.opens = true
  kind : e.kind = .userDefined
  name? : e.name? = none

theorem drop_eq_cons {i : Nat} {t : String} (h : line.token i = t) (ht : t ≠ "") :
    line.tokens.drop i = t :: line.tokens.drop (i + 1) := by
  rw [token, List.getD_eq_getElem?_getD] at h
  cases hi : line.tokens[i]? with
  | none =>
    rw [hi, Option.getD_none] at h
    exact absurd h.symm ht
  | some u =>
    rw [hi, Option.getD_some] at h
    obtain ⟨hlt, hu⟩ := List.getElem?_eq_some_iff.mp hi
    rw [List.drop_eq_getElem_cons hlt, hu, h]

theorem tokens_eq_cons (h : line.tokens ≠ []) : line.tokens = line.first :: line.tokens.drop 1 := by
  obtain ⟨t, ts, ht⟩ := List.exists_cons_of_ne_nil h
  rw [first, token, ht]
  rfl

namespace IsCut

theorem ne_nil (h : line.IsCut) : line.tokens ≠ [] := by
  cases h with
  | closer h => rw [h]; exact List.cons_ne_nil _ _
  | tail hne _ => exact hne

theorem isTail_drop (h : line.IsCut) (n : Nat) : IsTail (line.tokens.drop (n + 1)) := by
  cases h with
  | closer h =>
    rw [h, List.drop_succ_cons, List.drop_nil]
    exact isTail_nil
  | tail _ h => exact h.drop (n + 1)

theorem statement_eq (h : line.IsCut) :
    line.statement = line.tokens.takeWhile (· != blockOpen) := by
  unfold statement endsOpen
  cases h with
  | closer h => rw [h]; decide
  | tail _ h =>
    rcases List.eq_nil_or_concat line.tokens with he | ⟨us, t, he⟩
    · rw [he]; decide
    · obtain ⟨_, htake⟩ := h.takeWhile
      rw [List.concat_eq_append] at he
      rw [he, openerOf_concat] at htake
      rw [he, List.getLast?_concat, List.dropLast_concat]
      by_cases ho : t = blockOpen
      · rw [if_pos ho, ho] at htake
        rw [if_pos (by rw [ho]; exact beq_self_eq_true _), ho]
        exact List.append_cancel_right htake
      · rw [if_neg ho, List.append_nil] at htake
        rw [if_neg (by simpa using ho)]
        exact htake

theorem isScanned (h : line.IsCut) : line.IsScanned := by
  cases h with
  | closer h => exact .closer h
  | tail hne h =>
    rcases List.eq_nil_or_concat line.tokens with he | ⟨us, t, he⟩
    · exact absurd he hne
    · rw [List.concat_eq_append] at he
      rw [he, isTail_concat] at h
      obtain ⟨hus, ht | rfl⟩ := h
      · refine .plain hne fun u hu => ?_
        rw [he, List.mem_append, List.mem_singleton] at hu
        rcases hu with hu | rfl
        · exact (hus u hu).isTextToken
        · exact ht
      · exact .opener us (fun u hu => (hus u hu).isTextToken) he

end IsCut

theorem forall_isScanned {lines : List Line} (hl : ∀ line ∈ lines, line.IsCut) :
    ∀ line ∈ lines, line.IsScanned := fun line hm => (hl line hm).isScanned

/-! ## what is read from a line is stated there -/

theorem takeWhile_ne_empty (hs : line.IsScanned) (n : Nat) :
    (line.tokens.drop n).takeWhile (· != "") = line.tokens.drop n := by
  have hall : ∀ t ∈ line.tokens.drop n, (t != "") = true := fun t ht =>
    bne_iff_ne.mpr (hs.ne_empty_of_mem (List.mem_of_mem_drop ht))
  rw [← List.append_nil (line.tokens.drop n), List.takeWhile_append_of_pos hall, List.takeWhile_nil]

/-- a statement that ends before the token at place `i` -/
theorem takeWhile_drop_of_end (hs : line.IsScanned) {i : Nat}
    (h : line.token i = "" ∨ line.token i = blockOpen) :
    (line.tokens.drop i).takeWhile (· != blockOpen) = [] := by
  rcases h with h | h
  · rw [List.drop_eq_nil_of_le (hs.length_le_of_token_eq h)]
    rfl
  · rw [drop_eq_cons h (by decide)]
    exact List.takeWhile_cons_of_neg (by decide)

theorem takeWhile_cons {t : String} (h : t ≠ blockOpen) (ts : List String) :
    (t :: ts).takeWhile (· != blockOpen) = t :: ts.takeWhile (· != blockOpen) :=
  List.takeWhile_cons_of_pos (bne_iff_ne.mpr h)

theorem statement_eq_cons (hc : line.IsCut) {keyword : String} (hf : line.first = keyword)
    (hk : keyword ≠ blockOpen) (hn : ¬(line.token 1 = "" ∨ line.token 1 = blockOpen)) :
    line.statement =
      keyword :: line.token 1 :: (line.tokens.drop 2).takeWhile (· != blockOpen) := by
  rw [not_or] at hn
  rw [hc.statement_eq, tokens_eq_cons hc.ne_nil, drop_eq_cons rfl hn.1, hf, takeWhile_cons hk,
    takeWhile_cons hn.2]
  rfl

variable (catalog : Catalog) {isRoot : Bool} {name value : String}

theorem states_property (hc : line.IsCut)
    (h : Statement.ofLine isRoot line = .property name value) :
    line.States catalog (.property ⟨name, value⟩) := by
  have hr := Statement.reads_ofLine isRoot line
  rw [h] at hr
  cases hr with
  | property ho _ hs hu =>
    refine .property ?_ ((hc.isTail_drop 1).captures_takeWhile hu)
    rw [hc.statement_eq, tokens_eq_cons hc.ne_nil, drop_eq_cons hs (by decide), takeWhile_cons ho,
      takeWhile_cons (by decide)]
    rfl

theorem states_variable (hc : line.IsCut)
    (h : Statement.ofLine isRoot line = .declareVariable name value) :
    line.States catalog (.var name ⟨value, .unresolved⟩) := by
  have hr := Statement.reads_ofLine isRoot line
  rw [h] at hr
  cases hr with
  | initialised _ hf hn hs hu =>
    refine .initialised ?_ ((hc.isTail_drop 2).captures_takeWhile hu)
    rw [statement_eq_cons hc hf (by decide) hn, drop_eq_cons hs (by decide), takeWhile_cons (by decide)]
  | bare _ hf hn hs =>
    refine .bare ?_ captures_empty
    rw [statement_eq_cons hc hf (by decide) hn, takeWhile_drop_of_end hc.isScanned hs]

theorem states_child {typeName : String} {name? : Option String} {detached : Bool} (hc : line.IsCut)
    (h : Statement.ofLine isRoot line = .child typeName name? detached) :
    line.States catalog (.child typeName (Element.ofHeader catalog typeName name?).kind name?) := by
  have hr := Statement.reads_ofLine isRoot line
  rw [h] at hr
  have hend : ∀ {i}, line.token i = (if detached then "" else blockOpen) →
      line.token i = "" ∨ line.token i = blockOpen := by
    intro i he
    cases detached with
    | false => exact Or.inr he
    | true => exact Or.inl he
  cases hr with
  | nameless _ hf hn he =>
    refine .child ?_
    rw [statement_eq_cons hc hf (by decide) hn, takeWhile_drop_of_end hc.isScanned (hend he)]
    rfl
  | named _ hf hn hm he =>
    rw [not_or] at hm
    refine .child ?_
    rw [statement_eq_cons hc hf (by decide) hn, drop_eq_cons rfl hm.1, takeWhile_cons hm.2,
      takeWhile_drop_of_end hc.isScanned (hend he)]
    rfl

theorem statement_element {file : String} {depth index : Nat} {h : Header} (hc : line.IsCut)
    (he : Entry.ofLine catalog file depth index line = .element h) :
    line.statement = ["element", h.name] ∧ line.opens = true := by
  have hr := Entry.reads_ofLine catalog file index line depth
  rw [he] at hr
  cases hr with
  | element _ hf hn _ ho =>
    refine ⟨?_, opens_of_token_eq ho⟩
    rw [statement_eq_cons hc hf (by decide) hn, takeWhile_drop_of_end hc.isScanned (Or.inr ho)]

theorem states_constant {file : String} {depth index : Nat} {c : Constant} (hc : line.IsCut)
    (h : Entry.ofLine catalog file depth index line = .constant c) : line.StatesConstant c := by
  have hr := Entry.reads_ofLine catalog file index line depth
  rw [h] at hr
  cases hr with
  | constant _ hf hn hs hu =>
    refine ⟨line.tokens.drop 3, ?_, ?_⟩
    · rw [tokens_eq_cons hc.ne_nil, drop_eq_cons rfl hn, drop_eq_cons hs (by decide), hf]
      rfl
    · rw [takeWhile_ne_empty hc.isScanned]
      exact (hc.isTail_drop 2).captures hu

end Line
end Markup
