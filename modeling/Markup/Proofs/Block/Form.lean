import Markup.Proofs.Block.Extent
import Markup.Proofs.Statement

/-!
# The form of the trees that are read

Whatever the lines of a block say, the element that is read from it has a certain form: only a
root has variables, the nodes below it are children with a type, of the kind that the catalog tells,
and no property has the name of a keyword or of a brace.  Each statement keeps this form (`HasForm`),
and so does a block of statements (`gives_readBlock`).

* `Element.descendants`    the nodes of a tree below its root;
* `Element.IsInner`        the form of a node below a root;
* `Element.IsOuter`        the form of a root;
* `Header.gives_build`     the tree of a header has this form.
-/

namespace Markup

/-! ## readings with a result of some form -/

namespace Traced

variable {α β : Type} {P : α → Prop} {Q : β → Prop} {r : Traced α}

/-- unless a bracket ends it, the reading has a result with this property -/
def Gives (r : Traced α) (P : α → Prop) : Prop := ∀ a, r.result = .ok a → P a

theorem gives_pure {a : α} (h : P a) : (pure a).Gives P := by
  intro a' ha
  obtain rfl : a = a' := Except.ok.inj ha
  exact h

theorem gives_abandon (b : Unclosed) (P : α → Prop) : (abandon b).Gives P := by
  intro a ha
  exact absurd ha (by simp [abandon])

theorem Gives.after (h : r.Gives P) (events : List Event) : (r.after events).Gives P := h

theorem Gives.bind (h : r.Gives P) {f : α → Traced β} (hf : ∀ a, P a → (f a).Gives Q) :
    (r.bind f).Gives Q := by
  intro b hb
  obtain ⟨a, ha, hfa⟩ := result_bind_eq_ok.mp hb
  exact hf a (h a ha) b hfa

theorem Gives.of_toOption (h : r.Gives P) {a : α} (ha : r.result.toOption = some a) : P a := by
  cases hr : r.result with
  | error b =>
    rw [hr] at ha
    exact absurd ha (by simp [Except.toOption])
  | ok a' =>
    rw [hr] at ha
    obtain rfl : a' = a := Option.some.inj ha
    exact h a' hr

end Traced

/-! ## the nodes of a tree -/

/-- a name that a property can have: no keyword, no brace, and not empty -/
def IsPropertyName (name : String) : Prop := name ∉ ["var", "child", blockOpen, blockClose, ""]

namespace Element

mutual

/-- the nodes of a tree below its root -/
def descendants : Element → List Element
  | ⟨_, _, _, _, _, children⟩ => childDescendants children

def childDescendants : List Element → List Element
  | [] => []
  | c :: cs => c :: descendants c ++ childDescendants cs

end

theorem childDescendants_append (cs cs' : List Element) :
    childDescendants (cs ++ cs') = childDescendants cs ++ childDescendants cs' := by
  induction cs with
  | nil => rfl
  | cons c cs ih => rw [List.cons_append, childDescendants, childDescendants, ih, List.append_assoc]

theorem descendants_addChild (e c : Element) :
    (e.addChild c).descendants = e.descendants ++ c :: c.descendants := by
  obtain ⟨t, k, n, ps, vs, cs⟩ := e
  have hc : childDescendants [c] = c :: c.descendants := by
    rw [childDescendants, childDescendants, List.append_nil]
  show childDescendants (cs ++ [c]) = childDescendants cs ++ _
  rw [childDescendants_append, hc]

theorem descendants_addProperty (e : Element) (p : Property) :
    (e.addProperty p).descendants = e.descendants := by
  obtain ⟨t, k, n, ps, vs, cs⟩ := e
  rfl

/-- the form of a node below a root -/
structure IsInner (catalog : Catalog) (c : Element) : Prop where
  typeName : c.typeName ≠ "" ∧ c.typeName ≠ blockOpen
  name? : ∀ n, c.name? = some n → IsTextToken n ∧ n ≠ "" ∧ n ≠ blockOpen
  kind : c.kind = .toolkit ↔ catalog.reserves c.typeName = true
  vars : c.vars = []
  properties : ∀ p ∈ c.properties, IsPropertyName p.name

/-- the form of a root -/
structure IsOuter (catalog : Catalog) (e : Element) : Prop where
  typeName : e.typeName ≠ "" ∧ e.typeName ≠ blockOpen
  unreserved : catalog.reserves e.typeName = false
  name? : e.name? = none
  kind : e.kind = .userDefined
  properties : ∀ p ∈ e.properties, IsPropertyName p.name

/-- the form of an element that has been read up to some line, its header being that of `e₀` -/
structure HasForm (catalog : Catalog) (isRoot : Bool) (e e₀ : Element) : Prop where
  typeName : e.typeName = e₀.typeName
  name? : e.name? = e₀.name?
  kind : e.kind = e₀.kind
  vars : isRoot = false → e.vars = []
  properties : ∀ p ∈ e.properties, IsPropertyName p.name
  descendants : ∀ c ∈ e.descendants, c.IsInner catalog

variable {catalog : Catalog} {isRoot : Bool} {e₀ e c : Element}

theorem hasForm_self (catalog : Catalog) (isRoot : Bool) (hp : e.properties = [])
    (hv : e.vars = []) (hd : e.descendants = []) : e.HasForm catalog isRoot e where
  typeName := rfl
  name? := rfl
  kind := rfl
  vars := fun _ => hv
  properties := by
    rw [hp]
    exact fun _ h => absurd h List.not_mem_nil
  descendants := by
    rw [hd]
    exact fun _ h => absurd h List.not_mem_nil

namespace HasForm

theorem addProperty (h : e.HasForm catalog isRoot e₀) {p : Property} (hp : IsPropertyName p.name) :
    (e.addProperty p).HasForm catalog isRoot e₀ where
  typeName := h.typeName
  name? := h.name?
  kind := h.kind
  vars := h.vars
  properties := List.forall_mem_append.mpr ⟨h.properties, List.forall_mem_singleton.mpr hp⟩
  descendants := by
    rw [descendants_addProperty]
    exact h.descendants

theorem addVariable (h : e.HasForm catalog true e₀) (name : String) (v : Variable) :
    (e.addVariable name v).HasForm catalog true e₀ := by
  have hroot : ∀ vars, true = false → vars = ([] : List (String × Variable)) :=
    fun _ hr => absurd hr (by decide)
  unfold Element.addVariable
  split
  · exact h
  · exact ⟨h.typeName, h.name?, h.kind, hroot _, h.properties, by
      obtain ⟨t, k, n, ps, vs, cs⟩ := e
      exact h.descendants⟩

theorem addChild (h : e.HasForm catalog isRoot e₀) (hc : c.IsInner catalog)
    (hcs : ∀ d ∈ c.descendants, d.IsInner catalog) :
    (e.addChild c).HasForm catalog isRoot e₀ where
  typeName := h.typeName
  name? := h.name?
  kind := h.kind
  vars := h.vars
  properties := h.properties
  descendants := by
    rw [descendants_addChild]
    exact List.forall_mem_append.mpr ⟨h.descendants, List.forall_mem_cons.mpr ⟨hc, hcs⟩⟩

theorem isInner {typeName : String} {name? : Option String}
    (h : c.HasForm catalog false (ofHeader catalog typeName name?))
    (ht : typeName ≠ "" ∧ typeName ≠ blockOpen)
    (hn : ∀ n, name? = some n → IsTextToken n ∧ n ≠ "" ∧ n ≠ blockOpen) : c.IsInner catalog where
  typeName := h.typeName ▸ ht
  name? := h.name? ▸ hn
  kind := by
    rw [h.kind, h.typeName]
    show (if catalog.reserves typeName then ElementKind.toolkit else .userDefined) = _ ↔ _
    split
    · next hr => exact ⟨fun _ => hr, fun _ => rfl⟩
    · next hr => exact ⟨fun hk => absurd hk (by decide), fun hr' => absurd hr' hr⟩
  vars := h.vars rfl
  properties := h.properties

theorem isOuter {typeName : String} (h : e.HasForm catalog true (bare typeName .userDefined))
    (ht : typeName ≠ "" ∧ typeName ≠ blockOpen) (hr : catalog.reserves typeName = false) :
    e.IsOuter catalog where
  typeName := h.typeName ▸ ht
  unreserved := h.typeName ▸ hr
  name? := h.name?
  kind := h.kind
  properties := h.properties

end HasForm
end Element

/-! ## what a line says -/

theorem Line.mem_tokens {line : Line} {i : Nat} (h : line.token i ≠ "") :
    line.token i ∈ line.tokens := by
  unfold token at h ⊢
  rw [List.getD_eq_getElem?_getD] at h ⊢
  cases hi : line.tokens[i]? with
  | none =>
    rw [hi] at h
    exact absurd rfl h
  | some t => exact List.mem_of_getElem? hi

theorem Line.IsScanned.isTextToken_token {line : Line} (h : line.IsScanned) {i : Nat}
    (hf : line.first ≠ blockClose) (hn : ¬(line.token i = "" ∨ line.token i = blockOpen)) :
    IsTextToken (line.token i) := by
  rw [not_or] at hn
  have hmem := mem_tokens hn.1
  cases h with
  | closer h =>
    refine absurd ?_ hf
    rw [first, token, h]
    rfl
  | plain _ h => exact h _ hmem
  | opener ts h hts =>
    rw [hts, List.mem_append, List.mem_singleton] at hmem
    exact h _ (hmem.resolve_right hn.2)

namespace Statement

variable {isRoot : Bool} {line : Line}

theorem first_ne_var_of_property {name value : String}
    (h : ofLine isRoot line = property name value) : line.first ≠ "var" := by
  intro hv
  have ho : line.first ≠ blockOpen := by
    rw [hv]
    decide
  rw [ofLine, if_neg ho, if_pos hv] at h
  unfold variableOfLine withValue at h
  simp only at h
  repeat' split at h
  all_goals exact absurd h (by simp)

theorem isPropertyName_of_property {name value : String} (hs : line.IsScanned)
    (hc : line.first ≠ blockClose) (h : ofLine isRoot line = property name value) :
    IsPropertyName name := by
  have hv := first_ne_var_of_property h
  have hr := reads_ofLine isRoot line
  rw [h] at hr
  cases hr with
  | property ho hch _ _ =>
    have he : line.first ≠ "" := by
      intro he
      have hlen := hs.length_le_of_token_eq he
      exact hs.ne_nil (List.eq_nil_of_length_eq_zero (Nat.le_zero.mp hlen))
    simp only [IsPropertyName, List.mem_cons, List.not_mem_nil, not_or]
    exact ⟨hv, hch, ho, hc, he, not_false⟩

theorem isRoot_of_variable {name value : String}
    (h : ofLine isRoot line = declareVariable name value) : isRoot = true := by
  have hr := reads_ofLine isRoot line
  rw [h] at hr
  cases hr with
  | initialised hr _ _ _ _ | bare hr _ _ _ => exact hr

theorem tokens_of_child {typeName : String} {name? : Option String} {detached : Bool}
    (hs : line.IsScanned) (h : ofLine isRoot line = child typeName name? detached) :
    (typeName ≠ "" ∧ typeName ≠ blockOpen) ∧
      ∀ n, name? = some n → IsTextToken n ∧ n ≠ "" ∧ n ≠ blockOpen := by
  have hr := reads_ofLine isRoot line
  rw [h] at hr
  cases hr with
  | nameless _ hf hn _ => exact ⟨not_or.mp hn, fun _ he => absurd he (by simp)⟩
  | named _ hf hn hm _ =>
    have hclose : line.first ≠ blockClose := by
      rw [hf]
      decide
    refine ⟨not_or.mp hn, fun n he => ?_⟩
    obtain rfl := Option.some.inj he
    exact ⟨hs.isTextToken_token hclose hm, not_or.mp hm⟩

end Statement

/-! ## blocks -/

theorem gives_readChild {catalog : Catalog} {c : Element} {P : Element → Prop} (hc : P c)
    {lines : List Line}
    (ih : ∀ n i, (readBlock catalog false c 0 false i (lines.drop n)).Gives P)
    (detached : Bool) (index : Nat) :
    (readChild catalog c detached index lines).Gives P := by
  unfold readChild
  cases detached with
  | false => exact ih 0 index
  | true =>
    cases lines with
    | nil => exact Traced.gives_pure hc
    | cons opener body =>
      simp only [if_true]
      split
      · exact ih 1 (index + 1)
      · exact Traced.gives_pure hc

/-- whatever its lines say, a block keeps the form of an element -/
theorem gives_readBlock {catalog : Catalog} {isRoot : Bool} {e₀ e : Element}
    (h : e.HasForm catalog isRoot e₀) (depth : Nat) (detached : Bool) (index : Nat)
    {lines : List Line} (hl : ∀ line ∈ lines, line.IsScanned) :
    (readBlock catalog isRoot e depth detached index lines).Gives
      fun e' => e'.HasForm catalog isRoot e₀ := by
  match lines with
  | [] =>
    rw [readBlock_nil]
    exact Traced.gives_pure h
  | line :: lines =>
    obtain ⟨hline, hlines⟩ := List.forall_mem_cons.mp hl
    have ih : ∀ {isRoot e e₀}, e.HasForm catalog isRoot e₀ → ∀ depth detached n i,
        (readBlock catalog isRoot e depth detached i (lines.drop n)).Gives
          fun e' => e'.HasForm catalog isRoot e₀ := fun h depth detached n i =>
      gives_readBlock h depth detached i fun line hm => hlines line (List.mem_of_mem_drop hm)
    cases depth with
    | zero =>
      rw [readBlock]
      by_cases hc : line.first = blockClose
      · rw [if_pos hc]
        exact Traced.gives_pure h
      · rw [if_neg hc, if_neg (not_not_intro rfl)]
        by_cases hd : detached = true ∧ line.isLoneOpen = true
        · rw [if_pos hd]
          exact ih h 1 false 0 (index + 1)
        · rw [if_neg hd]
          cases hst : Statement.ofLine isRoot line with
          | property name value =>
            have hname := Statement.isPropertyName_of_property hline hc hst
            exact ih (h.addProperty hname) _ false 0 (index + 1)
          | declareVariable name value =>
            obtain rfl := Statement.isRoot_of_variable hst
            exact ih (h.addVariable name _) _ false 0 (index + 1)
          | rejected problem => exact ih h _ false 0 (index + 1)
          | unclosed bracket => exact Traced.gives_abandon bracket _
          | child typeName name? detached =>
            -- the form of the child goes by its own header, and then it is a node below this one
            obtain ⟨ht, hn⟩ := Statement.tokens_of_child hline hst
            have hchild : (Element.ofHeader catalog typeName name?).HasForm catalog false
                (.ofHeader catalog typeName name?) := Element.hasForm_self catalog false rfl rfl rfl
            have hbody := gives_readChild (P := fun c => c.HasForm catalog false _) hchild
              (ih hchild 0 false) detached (index + 1)
            refine Traced.Gives.bind hbody fun c hc => ?_
            exact ih (h.addChild (hc.isInner ht hn) hc.descendants) _ detached 0 (index + 1)
    | succ depth =>
      rw [readBlock]
      by_cases hc : line.first = blockClose
      · rw [if_pos hc]
        exact ih h depth detached 0 (index + 1)
      · rw [if_neg hc, if_pos (Nat.succ_ne_zero depth)]
        exact ih h _ detached 0 (index + 1)
termination_by lines.length
decreasing_by
  rw [List.length_drop, List.length_cons]
  omega

/-! ## headers -/

theorem Header.gives_build (catalog : Catalog) {lines : List Line}
    (hl : ∀ line ∈ lines, line.IsScanned) (h : Header) :
    (h.build catalog lines).Gives fun e =>
      e.root.HasForm catalog true (.bare h.name .userDefined) := by
  have hroot : (Element.bare h.name .userDefined).HasForm catalog true
      (.bare h.name .userDefined) := Element.hasForm_self catalog true rfl rfl rfl
  have hlines : ∀ line ∈ lines.drop (h.start + 1), line.IsScanned :=
    fun line hm => hl line (List.mem_of_mem_drop hm)
  have hblock := gives_readBlock hroot 0 false (h.start + 1) hlines
  exact (hblock.bind fun root hr => Traced.gives_pure hr).after _

end Markup
