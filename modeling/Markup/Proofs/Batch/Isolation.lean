import Markup.Proofs.Batch.Sources
import Markup.Proofs.Diagnostic

/-!
# The sources of a batch do not affect each other

What a batch declares is what its sources declare alone, one after the other, and the diagnostics
of each source are those that it has alone (`Batch.sources_isolated`).  The two passes share the
place that is looked at; each of them turns to a source before it reports anything there, so what
was looked at before does not matter.
-/

namespace Markup

/-! ## the events of a source -/

theorem Entry.isLocal_events (e : Entry) : ∀ x ∈ e.events, x.IsLocal := by
  cases e with
  | element h => simp [events, Event.IsLocal]
  | constant c => simp [events]
  | rejected p => cases p <;> simp [events, Event.IsLocal]
  | passed => simp [events]

theorem Outline.isLocal_ofLinesFrom (catalog : Catalog) (file : String) (depth index : Nat)
    (lines : List Line) : ∀ x ∈ (ofLinesFrom catalog file depth index lines).events, x.IsLocal := by
  induction lines generalizing depth index with
  | nil =>
    rw [ofLinesFrom_nil, atEnd]
    split <;> simp [Event.IsLocal]
  | cons line lines ih =>
    rw [ofLinesFrom_cons]
    refine List.forall_mem_cons.mpr ⟨trivial, List.forall_mem_append.mpr ⟨?_, ih _ _⟩⟩
    exact Entry.isLocal_events _

namespace Batch

variable (catalog : Catalog) (f : SourceFile)

theorem isLocal_build (d : Document) (h : Header) : ∀ x ∈ (build catalog d h).2, x.IsLocal := by
  have hbuilt : ∀ x ∈ (h.build catalog d.lines).events, x.IsLocal := fun x hx =>
    ((Header.reads_build catalog d.lines h).1.within x hx).isLocal
  rw [build_eq]
  cases (h.build catalog d.lines).result with
  | ok e => exact hbuilt
  | error b => exact List.forall_mem_append.mpr ⟨hbuilt, by simp [Event.IsLocal]⟩

/-- the events of building begin with the source, if there are any -/
theorem events_built :
    (built catalog f).2 = [] ∨ ∃ events, (∀ x ∈ events, x.IsLocal) ∧
      (built catalog f).2 = .source f.name (document f).lines :: events := by
  unfold built buildAll
  simp only
  split
  · exact Or.inl rfl
  · refine Or.inr ⟨_, fun x hx => ?_, rfl⟩
    obtain ⟨b, hb, hx⟩ := List.mem_flatMap.mp hx
    obtain ⟨h, _, rfl⟩ := List.mem_map.mp hb
    exact isLocal_build catalog (document f) h x hx

theorem isPlaced_outline : IsPlaced (outline catalog (document f)).events :=
  (isPlaced_source _ _ _).note _

theorem isPlaced_built : IsPlaced (built catalog f).2 := by
  rcases events_built catalog f with he | ⟨events, _, he⟩
  · rw [he]
    exact isPlaced_nil
  · rw [he]
    exact isPlaced_source _ _ _

/-- what is reported of the outline of a source, and what of its elements -/
def diagnostics (f : SourceFile) : List Diagnostic × List Diagnostic :=
  (Diagnostics.ofEvents (outline catalog (document f)).events,
    Diagnostics.ofEvents (built catalog f).2)

theorem file_of_mem_diagnostics {d : Diagnostic}
    (hd : d ∈ (diagnostics catalog f).1 ∨ d ∈ (diagnostics catalog f).2) : d.file = f.name := by
  rcases hd with hd | hd
  · have hlocal := Outline.isLocal_ofLinesFrom catalog f.name 0 0 (document f).lines
    have hsource : d ∈ Diagnostics.ofEvents (.source f.name (document f).lines ::
        (Outline.ofLinesFrom catalog f.name 0 0 (document f).lines).events) := hd
    exact Diagnostics.file_of_mem_source hlocal hsource
  · rcases events_built catalog f with he | ⟨events, hl, he⟩
    · rw [diagnostics, he] at hd
      exact absurd hd List.not_mem_nil
    · rw [diagnostics, he] at hd
      exact Diagnostics.file_of_mem_source hl hd

theorem diagnostics_read (files : List SourceFile) :
    Diagnostics.ofEvents (read catalog files).events =
      ((sources files).flatMap fun f => (diagnostics catalog f).1) ++
        (sources files).flatMap fun f => (diagnostics catalog f).2 := by
  rw [read_eq]
  simp only
  rw [ofEvents_append (isPlaced_flatMap (isPlaced_built catalog) _),
    ofEvents_append (isPlaced_flatMap (isPlaced_outline catalog) _), ofEvents_notes,
    List.nil_append, ofEvents_flatMap (isPlaced_outline catalog),
    ofEvents_flatMap (isPlaced_built catalog)]
  rfl

theorem diagnostics_singleton (f : SourceFile) :
    Diagnostics.ofEvents (read catalog [f]).events =
      (diagnostics catalog f).1 ++ (diagnostics catalog f).2 := by
  rw [diagnostics_read, sources_singleton, List.flatMap_singleton, List.flatMap_singleton]

/-- of what is found in some sources, the part with the name of one of them was found there -/
theorem filter_flatMap_of_file {fs : List SourceFile} (hnodup : (fs.map SourceFile.name).Nodup)
    {g : SourceFile → List Diagnostic} (hg : ∀ f, ∀ d ∈ g f, d.file = f.name) {f : SourceFile}
    (hf : f ∈ fs) : (fs.flatMap g).filter (·.file == f.name) = g f := by
  have hown : (g f).filter (·.file == f.name) = g f :=
    List.filter_eq_self.mpr fun d hd => beq_iff_eq.mpr (hg f d hd)
  have hother : ∀ k, k.name ≠ f.name → (g k).filter (·.file == f.name) = [] := by
    intro k hk
    rw [List.filter_eq_nil_iff]
    intro d hd he
    exact hk ((hg k d hd).symm.trans (beq_iff_eq.mp he))
  induction fs with
  | nil => exact absurd hf List.not_mem_nil
  | cons k ks ih =>
    rw [List.map_cons, List.nodup_cons] at hnodup
    rw [List.flatMap_cons, List.filter_append]
    rcases List.mem_cons.mp hf with rfl | hf
    · have hnone : (ks.flatMap g).filter (·.file == f.name) = [] := by
        rw [List.filter_flatMap, List.flatMap_eq_nil_iff]
        intro k hk
        exact hother k fun e => hnodup.1 (e ▸ List.mem_map_of_mem hk)
      rw [hown, hnone, List.append_nil]
    · have hk : k.name ≠ f.name := fun e => hnodup.1 (e ▸ List.mem_map_of_mem hf)
      rw [hother k hk, List.nil_append]
      exact ih hnodup.2 hf

/-- the sources that are read are the first of each name, in the order of the bytes of their names.
What the batch declares is what they declare alone, in this order, and of the diagnostics of the
batch those with the name of a source are those of this source alone -/
theorem sources_isolated (files : List SourceFile) :
    let fs := sources files
    let r := read catalog files
    (fs.Pairwise fun f g => utf8Bytes f.name < utf8Bytes g.name) ∧
      (∀ f, f ∈ fs ↔ content? files f.name = some f.content) ∧
      r.declarations.elements = (fs.flatMap fun f => (read catalog [f]).declarations.elements) ∧
      r.declarations.constants = (fs.flatMap fun f => (read catalog [f]).declarations.constants) ∧
      ∀ f ∈ fs, (Diagnostics.ofEvents r.events).filter (·.file == f.name) =
        Diagnostics.ofEvents (read catalog [f]).events := by
  intro fs r
  have hdecl : r.declarations = _ := congrArg Reading.declarations (read_eq catalog files)
  refine ⟨(pairwise_sources files).imp utf8Bytes_lt.mpr, fun f => mem_sources, ?_, ?_, ?_⟩
  · rw [hdecl]
    simp only [declarations_singleton]
    rfl
  · rw [hdecl]
    simp only [declarations_singleton]
    rfl
  · intro f hf
    have hnodup := nodup_sources files
    rw [diagnostics_read, diagnostics_read, sources_singleton, List.filter_append,
      filter_flatMap_of_file hnodup (fun f d hd => file_of_mem_diagnostics catalog f (.inl hd)) hf,
      filter_flatMap_of_file hnodup (fun f d hd => file_of_mem_diagnostics catalog f (.inr hd)) hf,
      List.flatMap_singleton, List.flatMap_singleton]

end Batch
end Markup
