import Markup.Json.Decode
import Markup.Json.Encode

/-!
# JSON forms of declarations

Which JSON values stand for declarations.  A structure is an object that has each of its fields, in
whatever order and with other fields among them, but none repeated; a list of values is an array, a
choice its name, and a text that may be missing a string or `null`.  The variables of an element are
an object whose fields have different names, in their order.

An encoder gives such a form (`Json.isDeclarations_ofDeclarations`), and a decoder takes all of them
that nest no deeper than its room (`Json.toDeclarations_of_isDeclarations`).

* `Json.depth`                           how deep the arrays and objects of a value nest;
* `Json.HasField`                        a field by its name, wherever it stands;
* `Json.IsElement`                       the forms of a tree;
* `Declarations.HasDistinctVariables`    no element declares a variable twice.
-/

namespace Markup

/-- in each node of a tree the variables have different names -/
inductive Element.HasDistinctVariables : Element → Prop
  | mk {typeName : String} {kind : ElementKind} {name? : Option String} {properties : List Property}
      {vars : List (String × Variable)} {children : List Element} (hv : (vars.map Prod.fst).Nodup)
      (hc : ∀ c ∈ children, c.HasDistinctVariables) :
      HasDistinctVariables ⟨typeName, kind, name?, properties, vars, children⟩

def Declarations.HasDistinctVariables (d : Declarations) : Prop :=
  ∀ e ∈ d.elements, e.root.HasDistinctVariables

namespace Json

/-! ## forms -/

section
variable {α : Type} (Form : Json → α → Prop)

/-- one of the fields has this name, and its value is a form of `a` -/
def HasField (fields : List (String × Json)) (name : String) (a : α) : Prop :=
  ∃ j, (name, j) ∈ fields ∧ Form j a

inductive IsList : Json → List α → Prop
  | mk {items : List (Json × α)} (h : ∀ i ∈ items, Form i.1 i.2) :
      IsList (array (items.map Prod.fst)) (items.map Prod.snd)

end

def IsText (j : Json) (s : String) : Prop := j = text s

inductive IsOptionalText : Json → Option String → Prop
  | none : IsOptionalText null none
  | some (s : String) : IsOptionalText (text s) (some s)

inductive IsKind : Json → ElementKind → Prop
  | toolkit : IsKind (text "Default") .toolkit
  | userDefined : IsKind (text "UserDefined") .userDefined

inductive IsVariableType : Json → VariableType → Prop
  | unresolved : IsVariableType (text "Unresolved") .unresolved

inductive IsVariable : Json → Variable → Prop
  | mk {fields : List (String × Json)} {value : String} {type : VariableType}
      (hn : (fields.map Prod.fst).Nodup) (hv : HasField IsText fields "value" value)
      (ht : HasField IsVariableType fields "var_type" type) :
      IsVariable (record fields) ⟨value, type⟩

/-- the variables of an element, each with its form -/
inductive IsVariables : Json → List (String × Variable) → Prop
  | mk {entries : List (String × Json × Variable)} (hn : (entries.map Prod.fst).Nodup)
      (h : ∀ x ∈ entries, IsVariable x.2.1 x.2.2) :
      IsVariables (record (entries.map fun x => (x.1, x.2.1))) (entries.map fun x => (x.1, x.2.2))

inductive IsNamed {α : Type} (make : String → String → α) : Json → α → Prop
  | mk {fields : List (String × Json)} {name value : String} (hn : (fields.map Prod.fst).Nodup)
      (h : HasField IsText fields "name" name) (hv : HasField IsText fields "value" value) :
      IsNamed make (record fields) (make name value)

inductive IsElement : Json → Element → Prop
  | mk {fields : List (String × Json)} {typeName : String} {kind : ElementKind}
      {name? : Option String} {properties : List Property} {vars : List (String × Variable)}
      {items : List (Json × Element)} (hn : (fields.map Prod.fst).Nodup)
      (htype : HasField IsText fields "type_name" typeName)
      (hkind : HasField IsKind fields "kind" kind)
      (hname : HasField IsOptionalText fields "element_name" name?)
      (hproperties : HasField (IsList (IsNamed Property.mk)) fields "properties" properties)
      (hvars : HasField IsVariables fields "variables" vars)
      (hchildren : ("children", array (items.map Prod.fst)) ∈ fields)
      (h : ∀ i ∈ items, IsElement i.1 i.2) :
      IsElement (record fields) ⟨typeName, kind, name?, properties, vars, items.map Prod.snd⟩

inductive IsDeclaredElement : Json → DeclaredElement → Prop
  | mk {fields : List (String × Json)} {root : Element} {file : String}
      (hn : (fields.map Prod.fst).Nodup) (hroot : HasField IsElement fields "root" root)
      (hfile : HasField IsText fields "file" file) : IsDeclaredElement (record fields) ⟨root, file⟩

inductive IsDeclarations : Json → Declarations → Prop
  | mk {fields : List (String × Json)} {elements : List DeclaredElement} {constants : List Constant}
      (hn : (fields.map Prod.fst).Nodup)
      (he : HasField (IsList IsDeclaredElement) fields "elements" elements)
      (hc : HasField (IsList (IsNamed Constant.mk)) fields "constants" constants) :
      IsDeclarations (record fields) ⟨elements, constants⟩

/-! ## what is encoded -/

theorem isList_list {α : Type} {Form : Json → α → Prop} {encode : α → Json} {as : List α}
    (h : ∀ a ∈ as, Form (encode a) a) : IsList Form (list encode as) as := by
  have hfst : (as.map fun a => (encode a, a)).map Prod.fst = as.map encode := by simp
  have hsnd : (as.map fun a => (encode a, a)).map Prod.snd = as := by simp [Function.comp_def]
  have hforms : ∀ i ∈ as.map fun a => (encode a, a), Form i.1 i.2 := List.forall_mem_map.mpr h
  have hlist := IsList.mk hforms
  rwa [hfst, hsnd] at hlist

theorem isOptionalText_orNull (name? : Option String) :
    IsOptionalText (orNull text name?) name? := by
  cases name? with
  | none => exact .none
  | some name => exact .some name

theorem isKind_ofKind (kind : ElementKind) : IsKind (ofKind kind) kind := by
  cases kind with
  | toolkit => exact .toolkit
  | userDefined => exact .userDefined

theorem isVariable_ofVariable (v : Variable) : IsVariable (ofVariable v) v := by
  obtain ⟨value, type⟩ := v
  cases type
  exact .mk (by simp) ⟨text value, by simp, rfl⟩
    ⟨_, List.mem_cons_of_mem _ List.mem_cons_self, .unresolved⟩

theorem isNamed_ofNamed {α : Type} (make : String → String → α) (name value : String) :
    IsNamed make (ofNamed name value) (make name value) :=
  .mk (by simp) ⟨text name, by simp, rfl⟩ ⟨text value, by simp, rfl⟩

theorem isVariables_record {vars : List (String × Variable)} (hn : (vars.map Prod.fst).Nodup) :
    IsVariables (record (vars.map fun (name, v) => (name, ofVariable v))) vars := by
  have hnames : (vars.map fun x => (x.1, ofVariable x.2, x.2)).map Prod.fst =
      vars.map Prod.fst := by simp
  have hvars := IsVariables.mk (hnames ▸ hn)
    (List.forall_mem_map.mpr fun x _ => isVariable_ofVariable x.2)
  simpa [Function.comp_def] using hvars

theorem ofElements_eq_map (es : List Element) : ofElements es = es.map ofElement := by
  induction es with
  | nil => rfl
  | cons e es ih => exact congrArg (ofElement e :: ·) ih

theorem isElement_ofElement {e : Element} (hv : e.HasDistinctVariables) :
    IsElement (ofElement e) e := by
  induction hv with
  | @mk typeName kind name? properties vars children hn hc ih =>
    let forms := children.map fun c => (ofElement c, c)
    have hfst : forms.map Prod.fst = ofElements children := by simp [forms, ofElements_eq_map]
    have hsnd : forms.map Prod.snd = children := by simp [forms, Function.comp_def]
    have hproperties : IsList (IsNamed Property.mk) (list ofProperty properties) properties :=
      isList_list fun p _ => isNamed_ofNamed Property.mk p.name p.value
    have helement : IsElement (ofElement ⟨typeName, kind, name?, properties, vars, children⟩)
        ⟨typeName, kind, name?, properties, vars, forms.map Prod.snd⟩ :=
      .mk (by simp) ⟨_, List.mem_cons_self, rfl⟩ ⟨ofKind kind, by simp, isKind_ofKind kind⟩
        ⟨orNull text name?, by simp, isOptionalText_orNull name?⟩ ⟨_, by simp, hproperties⟩
        ⟨_, by simp, isVariables_record hn⟩ (by simp [hfst]) (List.forall_mem_map.mpr ih)
    rwa [hsnd] at helement

theorem isDeclarations_ofDeclarations {d : Declarations} (hv : d.HasDistinctVariables) :
    IsDeclarations (ofDeclarations d) d := by
  have helements : IsList IsDeclaredElement (list ofDeclaredElement d.elements) d.elements :=
    isList_list fun e he => .mk (by simp) ⟨ofElement e.root, by simp, isElement_ofElement (hv e he)⟩
      ⟨text e.file, by simp, rfl⟩
  have hconstants : IsList (IsNamed Constant.mk) (list ofConstant d.constants) d.constants :=
    isList_list fun c _ => isNamed_ofNamed Constant.mk c.name c.value
  exact .mk (by simp) ⟨_, by simp, helements⟩ ⟨_, by simp, hconstants⟩

/-! ## nesting -/

mutual

/-- how deep the arrays and objects of a tree nest -/
def depth : Json → Nat
  | array items => itemDepth items + 1
  | object fields => fieldDepth fields + 1
  | _ => 0

def itemDepth : List Json → Nat
  | [] => 0
  | j :: js => max (depth j) (itemDepth js)

def fieldDepth : List (Option String × Json) → Nat
  | [] => 0
  | (_, j) :: fs => max (depth j) (fieldDepth fs)

end

theorem depth_le_itemDepth {items : List Json} {j : Json} (h : j ∈ items) :
    j.depth ≤ itemDepth items := by
  induction items with
  | nil => exact absurd h List.not_mem_nil
  | cons i is ih =>
    show j.depth ≤ max i.depth (itemDepth is)
    rcases List.mem_cons.mp h with rfl | h
    · exact Nat.le_max_left _ _
    · exact Nat.le_trans (ih h) (Nat.le_max_right _ _)

theorem depth_le_fieldDepth {fields : List (String × Json)} {f : String × Json} (h : f ∈ fields) :
    f.2.depth ≤ fieldDepth (fields.map fun f => (some f.1, f.2)) := by
  induction fields with
  | nil => exact absurd h List.not_mem_nil
  | cons g gs ih =>
    show f.2.depth ≤ max g.2.depth (fieldDepth _)
    rcases List.mem_cons.mp h with rfl | h
    · exact Nat.le_max_left _ _
    · exact Nat.le_trans (ih h) (Nat.le_max_right _ _)

/-- what is left of the room in an object is enough for its fields -/
theorem room_of_record {fields : List (String × Json)} {room : Nat}
    (h : (record fields).depth ≤ room) : ∃ r, room = r + 1 ∧ ∀ f ∈ fields, f.2.depth ≤ r := by
  have hd : (record fields).depth = fieldDepth (fields.map fun f => (some f.1, f.2)) + 1 := rfl
  refine ⟨room - 1, by omega, fun f hf => ?_⟩
  have hle := depth_le_fieldDepth hf
  omega

theorem room_of_array {items : List Json} {room : Nat} (h : (array items).depth ≤ room) :
    ∃ r, room = r + 1 ∧ ∀ j ∈ items, j.depth ≤ r := by
  have hd : (array items).depth = itemDepth items + 1 := rfl
  refine ⟨room - 1, by omega, fun j hj => ?_⟩
  have hle := depth_le_itemDepth hj
  omega

/-! ## what is decoded -/

theorem mapM_map {α β γ : Type} {encode : α → β} {decode : β → Option γ} {value : α → γ}
    {items : List α} (h : ∀ a ∈ items, decode (encode a) = some (value a)) :
    (items.map encode).mapM decode = some (items.map value) := by
  induction items with
  | nil => rfl
  | cons a as ih =>
    obtain ⟨ha, has⟩ := List.forall_mem_cons.mp h
    rw [List.map_cons, List.mapM_cons, ha, ih has]
    rfl

theorem namedFields_map (fields : List (String × Json)) :
    namedFields (fields.map fun f => (some f.1, f.2)) = some fields := by
  have h : namedFields (fields.map fun f => (some f.1, f.2)) = some (fields.map id) :=
    mapM_map fun _ _ => rfl
  rwa [List.map_id] at h

theorem filter_name_eq_singleton {fields : List (String × Json)}
    (hn : (fields.map Prod.fst).Nodup) {f : String × Json} (h : f ∈ fields) :
    fields.filter (fun g => g.1 == f.1) = [f] := by
  induction fields with
  | nil => exact absurd h List.not_mem_nil
  | cons g gs ih =>
    obtain ⟨hg, hgs⟩ := List.nodup_cons.mp hn
    rcases List.mem_cons.mp h with rfl | h
    · have hnone : gs.filter (fun g => g.1 == f.1) = [] := by
        rw [List.filter_eq_nil_iff]
        intro g hm he
        exact hg (List.mem_map.mpr ⟨g, hm, beq_iff_eq.mp he⟩)
      rw [List.filter_cons, if_pos (beq_self_eq_true f.1), hnone]
    · have hne : g.1 ≠ f.1 := fun he => hg (List.mem_map.mpr ⟨f, h, he.symm⟩)
      rw [List.filter_cons_of_neg (by rwa [beq_iff_eq]), ih hgs h]

theorem uniqueField_of_mem {fields : List (String × Json)} (hn : (fields.map Prod.fst).Nodup)
    {f : String × Json} (h : f ∈ fields) : uniqueField fields f.1 = some (some f.2) := by
  have hf := filter_name_eq_singleton hn h
  unfold uniqueField
  split
  · next hnil => exact absurd (hf.symm.trans hnil) (by simp)
  · next name value hone =>
    obtain rfl := (List.cons.inj (hf.symm.trans hone)).1
    rfl
  · next hmore => exact absurd hf (hmore f.1 f.2)

/-- the fields that are wanted are found wherever they stand, and the others are not looked at -/
theorem toFields_record {fields : List (String × Json)} (hn : (fields.map Prod.fst).Nodup)
    (wanted : List (String × Json)) (h : ∀ f ∈ wanted, f ∈ fields) (room : Nat) :
    toFields (wanted.map Prod.fst) (room + 1) (record fields) =
      some (wanted.map fun f => some f.2) := by
  show (namedFields (fields.map fun f => (some f.1, f.2))).bind _ = _
  rw [namedFields_map, Option.bind_some]
  exact mapM_map fun f hf => uniqueField_of_mem hn (h f hf)

theorem toFields_pair {fields : List (String × Json)} (hn : (fields.map Prod.fst).Nodup)
    {n₁ n₂ : String} {j₁ j₂ : Json} (h₁ : (n₁, j₁) ∈ fields) (h₂ : (n₂, j₂) ∈ fields) (room : Nat) :
    toFields [n₁, n₂] (room + 1) (record fields) = some [some j₁, some j₂] :=
  toFields_record hn [(n₁, j₁), (n₂, j₂)]
    (List.forall_mem_cons.mpr ⟨h₁, List.forall_mem_singleton.mpr h₂⟩) room

theorem toList_of_isList {α : Type} {Form : Json → α → Prop} {decode : Nat → Json → Option α}
    {j : Json} {as : List α} (h : IsList Form j as) {room : Nat} (hd : j.depth ≤ room)
    (hdecode : ∀ j a r, Form j a → j.depth ≤ r → decode r j = some a) :
    toList decode room j = some as := by
  obtain ⟨h⟩ := h
  obtain ⟨r, rfl, hr⟩ := room_of_array hd
  exact mapM_map fun i hi => hdecode i.1 i.2 r (h i hi) (hr i.1 (List.mem_map_of_mem hi))

theorem toOption_of_isOptionalText {j : Json} {name? : Option String} (h : IsOptionalText j name?) :
    toOption toText j = some name? := by
  cases h <;> rfl

theorem toKind_of_isKind {j : Json} {kind : ElementKind} (h : IsKind j kind) (room : Nat) :
    toKind room j = some kind := by
  cases h <;> rfl

theorem toVariable_of_isVariable {j : Json} {v : Variable} (h : IsVariable j v) {room : Nat}
    (hd : j.depth ≤ room) : toVariable room j = some v := by
  obtain ⟨hn, ⟨_, hv, rfl⟩, ⟨_, ht, ⟨⟩⟩⟩ := h
  obtain ⟨r, rfl, -⟩ := room_of_record hd
  rw [toVariable, toFields_pair hn hv ht]
  rfl

theorem toNamed_of_isNamed {α : Type} {make : String → String → α} {j : Json} {a : α}
    (h : IsNamed make j a) {room : Nat} (hd : j.depth ≤ room) : toNamed make room j = some a := by
  obtain ⟨hn, ⟨_, hname, rfl⟩, ⟨_, hv, rfl⟩⟩ := h
  obtain ⟨r, rfl, -⟩ := room_of_record hd
  rw [toNamed, toFields_pair hn hname hv]
  rfl

theorem foldl_putVariable {vars vs : List (String × Variable)}
    (hn : ((vs ++ vars).map Prod.fst).Nodup) :
    vars.foldl (fun vs (name, v) => putVariable vs name v) vs = vs ++ vars := by
  induction vars generalizing vs with
  | nil => exact (List.append_nil vs).symm
  | cons x xs ih =>
    have hsplit : vs ++ x :: xs = vs ++ [x] ++ xs := by simp
    have hnew : ∀ y ∈ vs, y.1 ≠ x.1 := by
      intro y hy he
      rw [List.map_append, List.nodup_append] at hn
      exact hn.2.2 y.1 (List.mem_map_of_mem hy) x.1 List.mem_cons_self he
    have hany : vs.any (fun y => y.1 == x.1) = false := by
      rw [List.any_eq_false]
      intro y hy he
      exact hnew y hy (beq_iff_eq.mp he)
    have hput : putVariable vs x.1 x.2 = vs ++ [x] := if_neg (by rw [hany]; decide)
    rw [hsplit] at hn ⊢
    show xs.foldl _ (putVariable vs x.1 x.2) = _
    rw [hput]
    exact ih hn

theorem toVariables_of_isVariables {j : Json} {vars : List (String × Variable)}
    (h : IsVariables j vars) {room : Nat} (hd : j.depth ≤ room) :
    toVariables room j = some vars := by
  obtain @⟨entries, hn, h⟩ := h
  obtain ⟨r, rfl, hr⟩ := room_of_record hd
  have hvars : (entries.map fun x => (x.1, x.2.1)).mapM
      (fun x : String × Json => (toVariable r x.2).map fun v => (x.1, v)) =
        some (entries.map fun x => (x.1, x.2.2)) := by
    refine mapM_map fun x hx => ?_
    have hv := toVariable_of_isVariable (h x hx) (hr _ (List.mem_map_of_mem hx))
    show (toVariable r x.2.1).map _ = _
    rw [hv]
    rfl
  have hnames : (([] ++ entries.map fun x => (x.1, x.2.2) : List (String × Variable)).map
      Prod.fst).Nodup := by
    simpa [Function.comp_def] using hn
  rw [record, toVariables, namedFields_map]
  simp only [Option.bind_eq_bind, Option.bind_some, hvars, foldl_putVariable hnames,
    List.nil_append]

/-- by induction on the form: a child has the room that is left below its list -/
theorem toElement_of_isElement {j : Json} {e : Element} (h : IsElement j e) {room : Nat}
    (hd : j.depth ≤ room) : toElement room j = some e := by
  induction h generalizing room with
  | @mk fields typeName kind name? properties vars items hn htype hkind hname hproperties hvars
      hchildren h ih =>
    obtain ⟨_, htype, rfl⟩ := htype
    obtain ⟨jkind, hkind, hkind'⟩ := hkind
    obtain ⟨jname, hname, hname'⟩ := hname
    obtain ⟨jproperties, hproperties, hproperties'⟩ := hproperties
    obtain ⟨jvars, hvars, hvars'⟩ := hvars
    obtain ⟨r, rfl, hr⟩ := room_of_record hd
    obtain ⟨r, rfl, hr'⟩ := room_of_array (hr _ hchildren)
    have hf := toFields_record hn [("type_name", text typeName), ("kind", jkind),
      ("element_name", jname), ("properties", jproperties), ("variables", jvars),
      ("children", array (items.map Prod.fst))]
      (by simp only [List.forall_mem_cons]
          exact ⟨htype, hkind, hname, hproperties, hvars, hchildren, nofun⟩) (r + 1)
    simp only [List.map_cons, List.map_nil] at hf
    have hp : toList toProperty (r + 1) jproperties = some properties :=
      toList_of_isList hproperties' (hr _ hproperties) fun _ _ _ h hd => toNamed_of_isNamed h hd
    have hv : toVariables (r + 1) jvars = some vars :=
      toVariables_of_isVariables hvars' (hr _ hvars)
    have hc : (items.map Prod.fst).mapM (toElement r) = some (items.map Prod.snd) :=
      mapM_map fun i hi => ih i hi (hr' i.1 (List.mem_map_of_mem hi))
    rw [toElement, hf]
    simp only [Option.bind_eq_bind, Option.bind_some, Option.getD_some,
      toKind_of_isKind hkind', toOption_of_isOptionalText hname', hp, hv, hc]
    rfl

theorem toDeclaredElement_of_isDeclaredElement {j : Json} {d : DeclaredElement}
    (h : IsDeclaredElement j d) {room : Nat} (hd : j.depth ≤ room) :
    toDeclaredElement room j = some d := by
  obtain ⟨hn, ⟨jroot, hroot, hroot'⟩, ⟨_, hfile, rfl⟩⟩ := h
  obtain ⟨r, rfl, hr⟩ := room_of_record hd
  rw [toDeclaredElement, toFields_pair hn hroot hfile]
  simp only [Option.bind_eq_bind, Option.bind_some, Nat.add_sub_cancel,
    toElement_of_isElement hroot' (hr _ hroot)]
  rfl

theorem toDeclarations_of_isDeclarations {j : Json} {d : Declarations} (h : IsDeclarations j d)
    {room : Nat} (hd : j.depth ≤ room) : toDeclarations room j = some d := by
  obtain ⟨hn, ⟨jelements, helements, helements'⟩, ⟨jconstants, hconstants, hconstants'⟩⟩ := h
  obtain ⟨r, rfl, hr⟩ := room_of_record hd
  have he : toList toDeclaredElement r jelements = some _ :=
    toList_of_isList helements' (hr _ helements) fun _ _ _ h hd =>
      toDeclaredElement_of_isDeclaredElement h hd
  have hc : toList toConstant r jconstants = some _ :=
    toList_of_isList hconstants' (hr _ hconstants) fun _ _ _ h hd => toNamed_of_isNamed h hd
  rw [toDeclarations, toFields_pair hn helements hconstants]
  simp only [Option.bind_eq_bind, Option.bind_some, Nat.add_sub_cancel, he, hc]

end Json
end Markup
