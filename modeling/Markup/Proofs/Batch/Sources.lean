import Markup.Batch
import Markup.Proofs.Outline.Places
import Markup.Proofs.Text.Bytes
import Mathlib.Data.List.Pairwise

/-!
# The sources of a batch

Of a batch, only the first content of each name counts.  `Batch.sources` are the sources that are
read, in the order of the bytes of their names (`pairwise_sources`), and `content?` is what the batch
holds under a name.  A reading goes over the sources twice, for the outlines and for the trees
(`read_eq`), so batches that hold the same under each name are read alike.
-/

namespace Markup

/-- what is reported while a batch is read, without what only the log shows -/
def withoutNotes (events : List Event) : List Event :=
  events.filter fun x => match x with
    | .note _ => false
    | .source _ _ | .line _ | .problem _ => true

theorem withoutNotes_append (xs ys : List Event) :
    withoutNotes (xs ++ ys) = withoutNotes xs ++ withoutNotes ys := List.filter_append xs ys

theorem withoutNotes_notes (notes : List Note) : withoutNotes (notes.map .note) = [] := by
  rw [withoutNotes, List.filter_eq_nil_iff]
  intro x hx
  obtain ⟨note, _, rfl⟩ := List.mem_map.mp hx
  exact Bool.false_ne_true

theorem Header.file_of_build {catalog : Catalog} {lines : List Line} {h : Header}
    {e : DeclaredElement} (he : (h.build catalog lines).result = .ok e) : e.file = h.file := by
  obtain ⟨root, _, hroot⟩ := Traced.result_bind_eq_ok.mp he
  obtain rfl : DeclaredElement.mk root h.file = e := Except.ok.inj hroot
  rfl

namespace Batch

/-! ## the sources that are read -/

/-- the sources that are read, in the order of their names -/
def sources (files : List SourceFile) : List SourceFile :=
  (firsts [] files).mergeSort fun f g => f.name ≤ g.name

/-- the content of the first source of this name -/
def content? (files : List SourceFile) (name : String) : Option String :=
  (files.find? (·.name == name)).map SourceFile.content

theorem mem_firsts {seen : List String} {files : List SourceFile} {f : SourceFile} :
    f ∈ firsts seen files ↔ f.name ∉ seen ∧ files.find? (·.name == f.name) = some f := by
  induction files generalizing seen with
  | nil => simp [firsts]
  | cons g gs ih =>
    rw [firsts]
    by_cases hf : g.name = f.name
    · have hfind : (g :: gs).find? (·.name == f.name) = some g :=
        List.find?_cons_of_pos (beq_iff_eq.mpr hf)
      rw [hfind, Option.some.injEq]
      by_cases hg : g.name ∈ seen
      · rw [if_pos hg, ih, ← hf]
        exact ⟨fun h => absurd hg h.1, fun h => absurd hg h.1⟩
      · rw [if_neg hg, List.mem_cons, ih]
        refine ⟨?_, fun h => Or.inl h.2.symm⟩
        rintro (rfl | h)
        · exact ⟨hg, rfl⟩
        · exact absurd (hf ▸ List.mem_cons_self) h.1
    · have hfind : (g :: gs).find? (·.name == f.name) = gs.find? (·.name == f.name) :=
        List.find?_cons_of_neg (by rw [beq_iff_eq]; exact hf)
      rw [hfind]
      by_cases hg : g.name ∈ seen
      · rw [if_pos hg, ih]
      · rw [if_neg hg, List.mem_cons, ih, List.mem_cons, not_or]
        have hne : f ≠ g := fun e => hf (e ▸ rfl)
        exact ⟨fun h => ⟨(h.resolve_left hne).1.2, (h.resolve_left hne).2⟩,
          fun h => Or.inr ⟨⟨Ne.symm hf, h.1⟩, h.2⟩⟩

theorem mem_sources {files : List SourceFile} {f : SourceFile} :
    f ∈ sources files ↔ content? files f.name = some f.content := by
  rw [sources, List.mem_mergeSort, mem_firsts, content?, Option.map_eq_some_iff]
  constructor
  · exact fun h => ⟨f, h.2, rfl⟩
  · rintro ⟨g, hg, hc⟩
    have hb := List.find?_some hg
    have hn : g.name = f.name := beq_iff_eq.mp hb
    obtain rfl : g = f := by
      cases g; cases f
      exact congr (congrArg SourceFile.mk hn) hc
    exact ⟨List.not_mem_nil, hg⟩

theorem nodup_sources (files : List SourceFile) : ((sources files).map SourceFile.name).Nodup :=
  ((List.mergeSort_perm _ _).map _).nodup_iff.mpr (nodup_firsts [] files)

theorem pairwise_sources (files : List SourceFile) :
    (sources files).Pairwise fun f g => f.name < g.name := by
  have htrans : ∀ f g h : SourceFile, decide (f.name ≤ g.name) = true →
      decide (g.name ≤ h.name) = true → decide (f.name ≤ h.name) = true := fun f g h hfg hgh =>
    decide_eq_true (String.le_trans (of_decide_eq_true hfg) (of_decide_eq_true hgh))
  have htotal : ∀ f g : SourceFile,
      (decide (f.name ≤ g.name) || decide (g.name ≤ f.name)) = true := fun f g => by
    rw [Bool.or_eq_true, decide_eq_true_iff, decide_eq_true_iff]
    exact String.le_total f.name g.name
  have hle := List.pairwise_mergeSort htrans htotal (firsts [] files)
  have hne : (sources files).Pairwise fun f g => f.name ≠ g.name :=
    List.pairwise_map.mp (nodup_sources files)
  refine (List.Pairwise.and hle hne).imp fun {f g} h => ?_
  rw [← String.not_le]
  exact fun hgf => h.2 (String.le_antisymm (of_decide_eq_true h.1) hgf)

theorem sources_congr {files files' : List SourceFile}
    (h : ∀ name, content? files name = content? files' name) : sources files = sources files' := by
  have hnodup : ∀ fs, (sources fs).Nodup := by
    intro fs
    refine List.Pairwise.imp ?_ (pairwise_sources fs)
    rintro f g hlt rfl
    exact String.lt_irrefl _ hlt
  have hperm : (sources files).Perm (sources files') := by
    rw [List.perm_ext_iff_of_nodup (hnodup files) (hnodup files')]
    intro f
    rw [mem_sources, mem_sources, h]
  refine hperm.eq_of_pairwise (fun f g _ _ hfg hgf => ?_) (pairwise_sources files)
    (pairwise_sources files')
  exact absurd hgf (String.lt_asymm hfg)

theorem sources_singleton (f : SourceFile) : sources [f] = [f] := by
  simp [sources, firsts]

theorem documents_eq (files : List SourceFile) : documents files = (sources files).map document := by
  rw [documents, sources, List.map_mergeSort]
  intro f _ g _
  rfl

/-! ## the two passes -/

variable (catalog : Catalog)

/-- the elements of a source, and what is seen of building them -/
def built (f : SourceFile) : List DeclaredElement × List Event :=
  buildAll catalog (document f) (outline catalog (document f)).headers

def declared (f : SourceFile) : Declarations :=
  ⟨(built catalog f).1, (outline catalog (document f)).constants⟩

theorem read_eq (files : List SourceFile) :
    read catalog files =
      { declarations :=
          { elements := (sources files).flatMap fun f => (declared catalog f).elements
            constants := (sources files).flatMap fun f => (declared catalog f).constants }
        events := (scanNotes [] files).map .note ++
          ((sources files).flatMap fun f => (outline catalog (document f)).events) ++
          (sources files).flatMap fun f => (built catalog f).2 } := by
  simp only [read, documents_eq, List.map_map, List.flatMap_map]
  rfl

theorem declarations_singleton (f : SourceFile) :
    (read catalog [f]).declarations = declared catalog f := by
  rw [read_eq, sources_singleton]
  simp only [List.flatMap_singleton]

/-! ## elements and their sources -/

theorem elements_declared (f : SourceFile) :
    (declared catalog f).elements =
      (Outline.ofLines catalog f.name (Line.ofSource f.content)).headers.filterMap fun h =>
        (h.build catalog (Line.ofSource f.content)).result.toOption := by
  have hbuild : ∀ h, (build catalog (document f) h).1 =
      (h.build catalog (document f).lines).result.toOption := by
    intro h
    rw [build_eq]
    cases (h.build catalog (document f).lines).result <;> rfl
  show ((Outline.ofLines catalog f.name (Line.ofSource f.content)).headers.map
    (build catalog (document f))).filterMap Prod.fst = _
  rw [List.filterMap_map]
  exact congrArg (List.filterMap · _) (funext hbuild)

theorem file_of_mem_declared {f : SourceFile} {e : DeclaredElement}
    (he : e ∈ (declared catalog f).elements) : e.file = f.name := by
  rw [elements_declared, List.mem_filterMap] at he
  obtain ⟨h, hm, hr⟩ := he
  rw [← Outline.file_of_mem_headers hm]
  cases hb : (h.build catalog (Line.ofSource f.content)).result with
  | error b =>
    rw [hb] at hr
    exact absurd hr (by simp [Except.toOption])
  | ok e' =>
    rw [hb] at hr
    rw [← Option.some.inj hr]
    exact Header.file_of_build hb

theorem pairwise_file (files : List SourceFile) :
    ((read catalog files).declarations.elements.map DeclaredElement.file).Pairwise
      fun a b => utf8Bytes a ≤ utf8Bytes b := by
  rw [read_eq, List.pairwise_map, List.pairwise_flatMap]
  constructor
  · intro f _
    refine List.pairwise_of_forall_mem_list fun e he e' he' => ?_
    rw [file_of_mem_declared catalog he, file_of_mem_declared catalog he']
    exact List.le_refl _
  · refine (pairwise_sources files).imp fun {f g} hlt e he e' he' => ?_
    rw [file_of_mem_declared catalog he, file_of_mem_declared catalog he', utf8Bytes_le]
    exact Std.le_of_lt hlt

/-- batches that hold the same under each name are read alike: they declare the same, and the same is
reported of them.  The elements are in the order of the bytes of the names of their sources -/
theorem read_congr (files files' : List SourceFile)
    (h : ∀ name, content? files name = content? files' name) :
    (read catalog files).declarations = (read catalog files').declarations ∧
      withoutNotes (read catalog files).events = withoutNotes (read catalog files').events ∧
      ((read catalog files).declarations.elements.map DeclaredElement.file).Pairwise
        fun a b => utf8Bytes a ≤ utf8Bytes b := by
  refine ⟨?_, ?_, pairwise_file catalog files⟩
  · rw [read_eq, read_eq, sources_congr h]
  · rw [read_eq, read_eq, sources_congr h]
    simp only [withoutNotes_append, withoutNotes_notes]

/-- two sources in the other order, and one of them twice -/
theorem read_congr_swapped :
    let a : SourceFile := ⟨"a.kml", "element Menu \x7b title = 1; \x7d"⟩
    let b : SourceFile := ⟨"b.kml", "const K = 2; x"⟩
    let c : SourceFile := ⟨"a.kml", "const K = 3;"⟩
    (∀ name, content? [a, b] name = content? [b, a, c] name) ∧
      (read .standard [a, b]).declarations = (read .standard [b, a, c]).declarations ∧
      withoutNotes (read .standard [a, b]).events =
        withoutNotes (read .standard [b, a, c]).events := by
  intro a b c
  have h : ∀ name, content? [a, b] name = content? [b, a, c] name := by
    intro name
    by_cases ha : "a.kml" = name
    · subst ha
      rfl
    · by_cases hb : "b.kml" = name
      · subst hb
        rfl
      · simp [content?, a, b, c, ha, hb]
  obtain ⟨hd, he, _⟩ := read_congr .standard [a, b] [b, a, c] h
  exact ⟨h, hd, he⟩

end Batch
end Markup
