import Markup.Proofs.Batch.Findings
import Markup.Proofs.Block.Form

/-!
# The trees of a batch, and the catalog

Every tree of a batch has the form that its catalog asks for (`Batch.trees_formed`).  If a catalog
reserves one more name, no element can be declared under it, and a child of that type becomes one of
the toolkit; nothing else becomes of the declarations (`Batch.read_reserving`).  In particular the
block of an element that is no longer declared is passed over as a whole, whatever it says.

* `Catalog.reserving`           a catalog with one more name;
* `Element.claimed`             a tree with the nodes of one type claimed for the toolkit;
* `Outline.ofLines_reserving`   the outline of a source under the new catalog.
-/

namespace Markup

/-! ## one more name -/

/-- the catalog with one more name -/
def Catalog.reserving (catalog : Catalog) (name : String) : Catalog :=
  ⟨fun n => n == name || catalog.reserves n⟩

theorem Catalog.reserving_ofNames (names : List String) (name : String) :
    (ofNames names).reserving name = ofNames (name :: names) := by
  have hcontains : ∀ n, (n == name || names.contains n) = (name :: names).contains n :=
    fun n => List.contains_cons.symm
  exact congrArg Catalog.mk (funext hcontains)

namespace Element

mutual

/-- the tree with every node of this type claimed for the toolkit -/
def claimed (name : String) : Element → Element
  | ⟨typeName, kind, name?, properties, vars, children⟩ =>
    ⟨typeName, if typeName = name then .toolkit else kind, name?, properties, vars,
      claimedAll name children⟩

def claimedAll (name : String) : List Element → List Element
  | [] => []
  | e :: es => claimed name e :: claimedAll name es

end

variable (name : String)

theorem claimedAll_append (es es' : List Element) :
    claimedAll name (es ++ es') = claimedAll name es ++ claimedAll name es' := by
  induction es with
  | nil => rfl
  | cons e es ih => rw [List.cons_append, claimedAll, claimedAll, ih, List.cons_append]

theorem claimed_bare {typeName : String} (h : typeName ≠ name) (kind : ElementKind) :
    claimed name (.bare typeName kind) = .bare typeName kind := by
  show (⟨typeName, if typeName = name then .toolkit else kind, none, [], [], []⟩ : Element) = _
  rw [if_neg h]
  rfl

theorem claimed_ofHeader (catalog : Catalog) (typeName : String) (name? : Option String) :
    claimed name (ofHeader catalog typeName name?) =
      ofHeader (catalog.reserving name) typeName name? := by
  have hreserves : (catalog.reserving name).reserves typeName =
      (typeName == name || catalog.reserves typeName) := rfl
  unfold ofHeader
  rw [hreserves]
  show (⟨typeName, if typeName = name then _ else _, name?, [], [], []⟩ : Element) = _
  by_cases h : typeName = name
  · rw [if_pos h, beq_iff_eq.mpr h]
    rfl
  · rw [if_neg h, beq_eq_false_iff_ne.mpr h]
    rfl

theorem retypes_claimed (catalog : Catalog) :
    Retypes catalog (catalog.reserving name) (claimed name) where
  ofHeader := claimed_ofHeader name catalog
  addProperty := by
    rintro ⟨t, k, n, ps, vs, cs⟩ p
    rfl
  addVariable := by
    rintro ⟨t, k, n, ps, vs, cs⟩ x v
    unfold addVariable
    split
    · next h => exact (if_pos h).symm
    · next h => exact (if_neg h).symm
  addChild := by
    rintro ⟨t, k, n, ps, vs, cs⟩ c
    show (⟨t, _, n, ps, vs, claimedAll name (cs ++ [c])⟩ : Element) = _
    rw [claimedAll_append]
    rfl

end Element

/-! ## headers -/

namespace Entry

/-- the entry `e'` is the entry `e`, but it is no header of an element of this name -/
structure Loses (name : String) (e e' : Entry) : Prop where
  header? : e'.header? = e.header?.filter (·.name != name)
  constant? : e'.constant? = e.constant?

theorem loses_of_header? {name : String} {e e' : Entry} (h : e.header? = none)
    (h' : e'.header? = none) (hc : e'.constant? = e.constant?) : e.Loses name e' :=
  ⟨by rw [h, h']; rfl, hc⟩

variable (catalog : Catalog) (name file : String) (index : Nat) (line : Line)

theorem loses_ofElementLine : (ofElementLine catalog file index line).Loses name
    (ofElementLine (catalog.reserving name) file index line) := by
  have hreserves : (catalog.reserving name).reserves (line.token 1) =
      (line.token 1 == name || catalog.reserves (line.token 1)) := rfl
  unfold ofElementLine
  simp only [hreserves]
  by_cases hn : line.token 1 = "" ∨ line.token 1 = blockOpen
  · rw [if_pos hn, if_pos hn]
    exact loses_of_header? rfl rfl rfl
  · rw [if_neg hn, if_neg hn]
    by_cases hname : line.token 1 = name
    · -- the name is checked before the block, so the line may have been rejected before, too
      have hlost : (some (⟨line.token 1, file, index, line.number⟩ : Header)).filter
          (·.name != name) = none := Option.filter_some_neg (by rw [hname]; simp)
      rw [beq_iff_eq.mpr hname, Bool.true_or, if_pos rfl]
      split
      · exact loses_of_header? rfl rfl rfl
      · split
        · exact loses_of_header? rfl rfl rfl
        · exact ⟨hlost.symm, rfl⟩
    · have hkept : (some (⟨line.token 1, file, index, line.number⟩ : Header)).filter
          (·.name != name) = some _ := Option.filter_some_pos (bne_iff_ne.mpr hname)
      rw [beq_eq_false_iff_ne.mpr hname, Bool.false_or]
      split
      · exact loses_of_header? rfl rfl rfl
      · split
        · exact loses_of_header? rfl rfl rfl
        · exact ⟨hkept.symm, rfl⟩

theorem header?_ofConstantLine : (ofConstantLine line).header? = none := by
  unfold ofConstantLine
  simp only
  repeat' split
  all_goals rfl

theorem loses_ofLine (depth : Nat) : (ofLine catalog file depth index line).Loses name
    (ofLine (catalog.reserving name) file depth index line) := by
  unfold ofLine
  by_cases hd : depth ≠ 0
  · rw [if_pos hd, if_pos hd]
    exact loses_of_header? rfl rfl rfl
  · rw [if_neg hd, if_neg hd]
    by_cases he : line.first = "element"
    · rw [if_pos he, if_pos he]
      exact loses_ofElementLine catalog name file index line
    · rw [if_neg he, if_neg he]
      refine loses_of_header? ?_ ?_ rfl <;>
      · split
        · exact header?_ofConstantLine line
        · split
          · rfl
          · split <;> rfl

end Entry

theorem Outline.ofLines_reserving (catalog : Catalog) (name file : String) (lines : List Line) :
    (ofLines (catalog.reserving name) file lines).headers =
        (ofLines catalog file lines).headers.filter (·.name != name) ∧
      (ofLines (catalog.reserving name) file lines).constants =
        (ofLines catalog file lines).constants := by
  have hentry : ∀ i, (entryAt catalog file lines i).Loses name
      (entryAt (catalog.reserving name) file lines i) := by
    intro i
    unfold entryAt
    cases lines[i]? with
    | none => exact Entry.loses_of_header? rfl rfl rfl
    | some line => exact Entry.loses_ofLine catalog name file i line _
  have hof : ∀ catalog, (ofLines catalog file lines).headers = _ ∧
      (ofLines catalog file lines).constants = _ := fun catalog =>
    ⟨(ofLinesFrom_entries catalog file lines 0).1, (ofLinesFrom_entries catalog file lines 0).2.1⟩
  rw [(hof _).1, (hof _).1, (hof _).2, (hof _).2, List.filter_filterMap]
  exact ⟨congrArg (List.filterMap · _) (funext fun i => (hentry i).header?),
    congrArg (List.filterMap · _) (funext fun i => (hentry i).constant?)⟩

/-! ## batches -/

theorem builtFrom_filter {catalog : Catalog} {lines : List Line}
    (hl : ∀ line ∈ lines, line.IsScanned) (name : String) (hs : List Header) :
    builtFrom catalog lines (hs.filter (·.name != name)) =
      (builtFrom catalog lines hs).filter (·.root.typeName != name) := by
  rw [builtFrom, builtFrom, List.filterMap_filter, List.filter_filterMap]
  refine congrArg (List.filterMap · hs) (funext fun h => ?_)
  cases hb : (h.build catalog lines).result.toOption with
  | none =>
    show (if _ then _ else _) = _
    split <;> rfl
  | some e =>
    have htype : e.root.typeName = h.name :=
      ((Header.gives_build catalog hl h).of_toOption hb).typeName
    rw [← htype]
    rfl

namespace Batch

variable (catalog : Catalog)

theorem declared_reserving (name : String) (f : SourceFile) :
    (declared (catalog.reserving name) f).elements =
        ((declared catalog f).elements.filter (·.root.typeName != name)).map
          (DeclaredElement.mapRoot (Element.claimed name)) ∧
      (declared (catalog.reserving name) f).constants = (declared catalog f).constants := by
  have hl : ∀ line ∈ Line.ofSource f.content, line.IsScanned := fun _ hm => Line.isScanned_of_mem hm
  obtain ⟨hheaders, hconstants⟩ :=
    Outline.ofLines_reserving catalog name f.name (Line.ofSource f.content)
  rw [declared_eq, declared_eq]
  refine ⟨?_, hconstants⟩
  simp only
  rw [hheaders, ← builtFrom_filter hl]
  refine builtFrom_echoes (k := 0) (Element.retypes_claimed name catalog) (fun h hm => ?_)
    (List.forall₂_same.mpr fun h _ => h.isLowered_zero) rfl
  have hne := (List.mem_filter.mp hm).2
  exact Element.claimed_bare name (bne_iff_ne.mp hne) .userDefined

/-- a catalog with one more name: the constants are the same, and the elements are those of other
names, with the children of this type claimed for the toolkit -/
theorem read_reserving (name : String) (files : List SourceFile) :
    let d := (read catalog files).declarations
    let d' := (read (catalog.reserving name) files).declarations
    d'.constants = d.constants ∧
      d'.elements = (d.elements.filter fun e => e.root.typeName != name).map
        (DeclaredElement.mapRoot (Element.claimed name)) := by
  intro d d'
  have hd : d = _ := congrArg Reading.declarations (read_eq catalog files)
  have hd' : d' = _ := congrArg Reading.declarations (read_eq (catalog.reserving name) files)
  rw [hd, hd']
  constructor
  · exact List.flatMap_congr fun f _ => (declared_reserving catalog name f).2
  · simp only
    rw [List.filter_flatMap, List.map_flatMap]
    exact List.flatMap_congr fun f _ => (declared_reserving catalog name f).1

/-- each tree of a batch is a root, with nodes below it that are children -/
theorem trees_formed (files : List SourceFile) :
    ∀ e ∈ (read catalog files).declarations.elements,
      e.root.IsOuter catalog ∧ ∀ c ∈ e.root.descendants, c.IsInner catalog := by
  intro e he
  rw [read_eq] at he
  obtain ⟨f, _, he⟩ := List.mem_flatMap.mp he
  rw [elements_declared] at he
  obtain ⟨h, hm, hb⟩ := List.mem_filterMap.mp he
  have hl : ∀ line ∈ Line.ofSource f.content, line.IsScanned := fun _ hm => Line.isScanned_of_mem hm
  have hform := (Header.gives_build catalog hl h).of_toOption hb
  obtain ⟨hname, hreserves⟩ := Outline.name_of_mem_headers hm
  exact ⟨hform.isOuter hname hreserves, hform.descendants⟩

/-- a root with a child of the toolkit, and in it one that some source declares -/
theorem trees_formed_menu :
    let f : SourceFile := ⟨"a.kml",
      "element E \x7b var v = 1; s = v; child UIText t \x7b x = v; var w; child C; \x7d \x7d"⟩
    let e : DeclaredElement := ⟨⟨"E", .userDefined, none, [⟨"s", "v"⟩],
      [("v", ⟨"1", .unresolved⟩)], [⟨"UIText", .toolkit, some "t", [⟨"x", "v"⟩], [],
        [⟨"C", .userDefined, none, [], [], []⟩]⟩]⟩, "a.kml"⟩
    e ∈ (read .standard [f]).declarations.elements ∧
      e.root.IsOuter .standard ∧ ∀ c ∈ e.root.descendants, c.IsInner .standard := by
  intro f e
  have he : e ∈ (read .standard [f]).declarations.elements := by decide +kernel
  exact ⟨he, trees_formed .standard [f] e he⟩

end Batch
end Markup
