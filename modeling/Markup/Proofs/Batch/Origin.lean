import Markup.Proofs.Batch.Sources
import Markup.Proofs.Diagnostic
import Markup.Proofs.Outline.Origin

/-!
# Where the declarations of a batch come from

What a batch declares is read from the lines of its sources, value by value: the tokens of a value
are the tokens behind the equals sign of its line, and every value has a shape
(`Batch.values_captured`).

Of a batch that is accepted as a whole no line is lost, except for the lines that are aside
(`Batch.strict_accounts`).  These are the blocks of lines that end in an opener but are no headers,
which are passed over without a word (`Batch.strict_passes_over_blocks`).
-/

namespace Markup

namespace Batch

variable (catalog : Catalog)

theorem isCut_document (f : SourceFile) : ∀ line ∈ Line.ofSource f.content, line.IsCut :=
  fun _ hm => Line.isCut_of_mem hm

theorem declared_eq (f : SourceFile) :
    let outline := Outline.ofLines catalog f.name (Line.ofSource f.content)
    declared catalog f =
      ⟨builtFrom catalog (Line.ofSource f.content) outline.headers, outline.constants⟩ := by
  intro outline
  show Declarations.mk (declared catalog f).elements _ = _
  rw [elements_declared]
  rfl

/-! ## values -/

/-- all values in the tree have a shape -/
def IsShaped (e : Element) : Prop :=
  ∀ p ∈ e.parts, ∀ value, p.value? = some value → ∃ shape, Shape.ofText value = .ok shape

section
variable {catalog} {lines : List Line}

theorem isShaped_of_fits {o : Origin} {e : Element} (h : o.Fits catalog lines e) : IsShaped e := by
  intro p hp value hv
  obtain ⟨x, hx, rfl⟩ := List.mem_map.mp (h.parts.mem_iff.mp hp)
  obtain ⟨line, _, hst⟩ := h.states x hx
  generalize x.2 = part at hst hv
  cases hst with
  | property _ hc | initialised _ hc | bare _ hc => exact Option.some.inj hv ▸ hc.shape
  | child _ => exact absurd hv (by simp [Part.value?])

variable {d : Declarations} {o : Origins} (h : o.Fit catalog lines d)
include h

theorem isShaped_of_mem : ∀ e ∈ d.elements, IsShaped e.root := by
  have hboth : List.Forall₂ (fun e origin => IsShaped e.root ∧ origin.Fits catalog lines e.root)
      d.elements o.elements :=
    .flip (h.elements.imp fun _ _ hfits => ⟨isShaped_of_fits hfits, hfits⟩)
  exact ((List.forall₂_and_left _ _).mp hboth).1

theorem exists_shape_of_constant {c : Constant} (hc : c ∈ d.constants) :
    ∃ shape, Shape.ofText c.value = .ok shape := by
  rw [← h.constants] at hc
  obtain ⟨x, hx, rfl⟩ := List.mem_map.mp hc
  obtain ⟨_, _, _, _, hcaptures⟩ := h.states x hx
  exact hcaptures.shape

end

/-- every element and every constant of a batch is read from lines of its own in its source, the
tokens of a value being those behind the equals sign of its line; every value has a shape, so none is
listed as invalid -/
theorem values_captured (files : List SourceFile) :
    let d := (read catalog files).declarations
    (d.elements = (sources files).flatMap fun f => (declared catalog f).elements) ∧
      (d.constants = (sources files).flatMap fun f => (declared catalog f).constants) ∧
      (∀ f ∈ sources files, (∀ e ∈ (declared catalog f).elements, e.file = f.name) ∧
        ∃ o : Origins, o.Fit catalog (Line.ofSource f.content) (declared catalog f)) ∧
      (∀ e ∈ d.elements, IsShaped e.root) ∧
      (∀ c ∈ d.constants, ∃ shape, Shape.ofText c.value = .ok shape) ∧
      ∀ e ∈ d.elements, ∀ value ∈ e.root.values, shapeName value ≠ "invalid" := by
  intro d
  have hd : d = _ := congrArg Reading.declarations (read_eq catalog files)
  have horigin : ∀ f, ∃ o : Origins, o.Fit catalog (Line.ofSource f.content) (declared catalog f) := by
    intro f
    obtain ⟨o, ho, _⟩ := exists_origins catalog f.name (isCut_document f)
    exact ⟨o, by rw [declared_eq]; exact ho⟩
  have hshape : ∀ e ∈ d.elements, IsShaped e.root := by
    intro e he
    rw [hd] at he
    obtain ⟨f, _, he⟩ := List.mem_flatMap.mp he
    obtain ⟨o, ho⟩ := horigin f
    exact isShaped_of_mem ho e he
  refine ⟨by rw [hd], by rw [hd], fun f _ => ⟨fun e he => ?_, horigin f⟩, hshape, ?_, ?_⟩
  · exact file_of_mem_declared catalog he
  · intro c hc
    rw [hd] at hc
    obtain ⟨f, _, hc⟩ := List.mem_flatMap.mp hc
    obtain ⟨o, ho⟩ := horigin f
    exact exists_shape_of_constant ho hc
  · intro e he value hv
    obtain ⟨p, hp, rfl⟩ := Element.exists_property_of_mem_values e.root hv
    exact shapeName_ne_invalid (hshape e he _ hp _ rfl)

/-! ## lines -/

theorem quiet_of_readStrict {files : List SourceFile} {d : Declarations}
    (h : readStrict files = .ok d) :
    d = (read .standard files).declarations ∧ IsQuiet (read .standard files).events := by
  unfold readStrict at h
  simp only at h
  split at h
  · next hnil => exact ⟨(Except.ok.inj h).symm, Diagnostics.ofEvents_eq_nil.mp hnil⟩
  · exact absurd h (by simp)

theorem readStrict_eq_ok {files : List SourceFile} {d : Declarations}
    (h : (readStrict files).toOption = some d) : readStrict files = .ok d := by
  cases hr : readStrict files with
  | error ds =>
    rw [hr] at h
    exact absurd h (by simp [Except.toOption])
  | ok d' =>
    rw [hr] at h
    exact congrArg Except.ok (Option.some.inj h)

theorem quiet_build {d : Document} {h : Header} (hq : IsQuiet (build catalog d h).2) :
    IsQuiet (h.build catalog d.lines).events ∧ ∃ e, (h.build catalog d.lines).result = .ok e := by
  rw [build_eq] at hq
  cases hr : (h.build catalog d.lines).result with
  | ok e =>
    rw [hr] at hq
    exact ⟨hq, e, rfl⟩
  | error b =>
    rw [hr] at hq
    exact absurd (isQuiet_append.mp hq).2.tail not_isQuiet_problem

theorem quiet_source {files : List SourceFile} (hq : IsQuiet (read catalog files).events)
    {f : SourceFile} (hf : f ∈ sources files) :
    let outline := Outline.ofLines catalog f.name (Line.ofSource f.content)
    IsQuiet outline.events ∧ ∀ h ∈ outline.headers,
      IsQuiet (h.build catalog (Line.ofSource f.content)).events ∧
        ∃ e, (h.build catalog (Line.ofSource f.content)).result = .ok e := by
  intro outline
  rw [read_eq, isQuiet_append, isQuiet_append, isQuiet_flatMap, isQuiet_flatMap] at hq
  obtain ⟨⟨_, houtline⟩, hbuilt⟩ := hq
  refine ⟨(houtline f hf).tail.tail, fun h hm => quiet_build catalog (d := document f) ?_⟩
  have hne : outline.headers.isEmpty ≠ true := fun he =>
    List.ne_nil_of_mem hm (List.isEmpty_iff.mp he)
  have hall : IsQuiet (if outline.headers.isEmpty then [] else .source f.name _ ::
      (outline.headers.map (build catalog (document f))).flatMap Prod.snd) := hbuilt f hf
  rw [if_neg hne] at hall
  exact isQuiet_flatMap.mp hall.tail _ (List.mem_map_of_mem hm)

/-- of a batch that is accepted as a whole, each line that is no brace is read once, as a declaration
or as a part of the element in whose block it lies, or it repeats a variable of that element, or it is
aside -/
theorem strict_accounts {files : List SourceFile} {d : Declarations}
    (h : readStrict files = .ok d) :
    (d.elements = (sources files).flatMap fun f => (declared .standard f).elements) ∧
      (d.constants = (sources files).flatMap fun f => (declared .standard f).constants) ∧
      ∀ f ∈ sources files, ∃ o : Origins,
        o.Fit .standard (Line.ofSource f.content) (declared .standard f) ∧
          ∀ i line, (Line.ofSource f.content)[i]? = some line → line.isLoneOpen = false →
            line.isLoneClose = false → o.Accounts .standard (Line.ofSource f.content) i := by
  obtain ⟨rfl, hq⟩ := quiet_of_readStrict h
  refine ⟨by rw [read_eq], by rw [read_eq], fun f hf => ?_⟩
  obtain ⟨hquiet, hbuilt⟩ := quiet_source .standard hq hf
  obtain ⟨o, ho, hall⟩ := exists_origins .standard f.name (isCut_document f)
  exact ⟨o, by rw [declared_eq]; exact ho, hall hquiet hbuilt⟩

theorem strict_accounts_menu :
    let f : SourceFile := ⟨"a.kml",
      "const W=3; element E \x7b var w=W; var w; s=1 \x7b x=1; \x7d child C; \x7b t=W; \x7d \x7d"⟩
    let d : Declarations := ⟨[⟨⟨"E", .userDefined, none, [⟨"s", "1"⟩], [("w", ⟨"W", .unresolved⟩)],
      [⟨"C", .userDefined, none, [⟨"t", "W"⟩], [], []⟩]⟩, "a.kml"⟩], [⟨"W", "3"⟩]⟩
    readStrict [f] = .ok d ∧ ∃ o : Origins,
      o.Fit .standard (Line.ofSource f.content) (declared .standard f) ∧
        ∀ i line, (Line.ofSource f.content)[i]? = some line → line.isLoneOpen = false →
          line.isLoneClose = false → o.Accounts .standard (Line.ofSource f.content) i := by
  intro f d
  have hread : readStrict [f] = .ok d := readStrict_eq_ok (by decide +kernel)
  have hf : f ∈ sources [f] := by
    rw [sources_singleton]
    exact List.mem_singleton.mpr rfl
  exact ⟨hread, (strict_accounts hread).2.2 f hf⟩

/-- a batch that is accepted as a whole, with two lines that are no braces and from which nothing is
read: one that opens a block outside all elements, and one in a block behind a property -/
theorem strict_passes_over_blocks :
    let f : SourceFile :=
      ⟨"a.kml", "a \x7b\n\x7d\nelement E \x7b\nx = 1 \x7b\ny = 2;\n\x7d\n\x7d"⟩
    let lines := Line.ofSource f.content
    readStrict [f] = .ok ⟨[⟨⟨"E", .userDefined, none, [⟨"x", "1"⟩], [], []⟩, "a.kml"⟩], []⟩ ∧
      f ∈ sources [f] ∧ lines[0]? = some ⟨["a", blockOpen], 1⟩ ∧
      lines[4]? = some ⟨["y", "=", "2"], 5⟩ ∧
      ∀ o : Origins, o.Fit .standard lines (declared .standard f) → ∀ i, i = 0 ∨ i = 4 →
        i ∉ o.places ∧ ∀ p ∈ o.elements, ¬p.Repeats .standard lines i := by
  intro f lines
  have hread : readStrict [f] =
      .ok ⟨[⟨⟨"E", .userDefined, none, [⟨"x", "1"⟩], [], []⟩, "a.kml"⟩], []⟩ :=
    readStrict_eq_ok (by decide +kernel)
  have hdeclared := (declarations_singleton .standard f).symm.trans (quiet_of_readStrict hread).1.symm
  have h0 : lines[0]? = some ⟨["a", blockOpen], 1⟩ := by decide
  have h4 : lines[4]? = some ⟨["y", "=", "2"], 5⟩ := by decide
  refine ⟨hread, by rw [sources_singleton]; exact List.mem_singleton.mpr rfl, h0, h4, ?_⟩
  intro o ho i hi
  -- a line from which something is read begins in another way
  have hbegin : ∀ line, lines[i]? = some line → ∀ t ts, line.statement = t :: ts →
      t ≠ "element" ∧ t ≠ "x" ∧ t ≠ "var" := by
    rintro line hline t ts hst
    rcases hi with rfl | rfl
    · obtain rfl := Option.some.inj (h0.symm.trans hline)
      obtain ⟨rfl, _⟩ := List.cons.inj (hst.symm.trans rfl)
      decide
    · obtain rfl := Option.some.inj (h4.symm.trans hline)
      obtain ⟨rfl, _⟩ := List.cons.inj (hst.symm.trans rfl)
      decide
  rw [hdeclared] at ho
  obtain ⟨p, os, hfits, hos, he⟩ := List.forall₂_cons_right_iff.mp ho.elements
  obtain rfl := List.forall₂_nil_right_iff.mp hos
  have hconstants : o.constants = [] := List.map_eq_nil_iff.mp ho.constants
  rw [Origins.places, he, hconstants, List.map_nil, List.append_nil, List.flatMap_singleton]
  constructor
  · intro hmem
    rcases List.mem_cons.mp hmem with rfl | hmem
    · obtain ⟨line, hline, helement⟩ := hfits.header
      exact (hbegin line hline _ _ helement.statement).1 rfl
    · obtain ⟨x, hx, rfl⟩ := List.mem_map.mp hmem
      obtain ⟨line, hline, hst⟩ := hfits.states x hx
      have hpart : x.2 = .property ⟨"x", "1"⟩ :=
        List.mem_singleton.mp (hfits.parts.mem_iff.mpr (List.mem_map_of_mem hx))
      rw [hpart] at hst
      cases hst with
      | property h _ => exact (hbegin line hline _ _ h).2.1 rfl
  · rintro q _ ⟨line, name, v, _, hline, hst, _⟩
    cases hst with
    | initialised h _ | bare h _ => exact (hbegin line hline _ _ h).2.2 rfl

end Batch
end Markup
