import Markup.Proofs.Batch.Findings
import Markup.Proofs.Line.Joined
import Markup.Proofs.Outline.Report
import Markup.Proofs.Problem

/-!
# What is told of a batch

The diagnostics of a source are what its two passes tell of its lines.  Those of each pass are in the
order of the lines and there are never two for one line, apart from the block that is open at the end
(`Batch.diagnostics_ordered`).  Each of them points at a line of its source, and a fatal one at a
bracket that has no partner in the value on that line (`Batch.diagnostics_placed`).
-/

namespace Markup

/-! ## the lines of a source -/

/-- a source that began above its first line would be read alike -/
theorem Line.one_le_number {source : String} {line : Line} (h : line ∈ Line.ofSource source) :
    1 ≤ line.number := by
  have hstart : ({ number := 0 } : Scan).behind [] 1 = {} := rfl
  have hsource : Line.ofSource source =
      (source.toList.foldl Scan.step { number := 0 }).finish.map (Line.lowered 1) := by
    rw [Line.ofSource, ← hstart, Scan.foldl_behind, Scan.finish_behind]
    rfl
  rw [hsource] at h
  obtain ⟨above, _, rfl⟩ := List.mem_map.mp h
  exact Nat.le_add_left 1 above.number

theorem Line.IsScanned.text_ne {line : Line} (h : line.IsScanned) : line.text ≠ "" := by
  obtain ⟨t, ts, hts⟩ := List.exists_cons_of_ne_nil h.ne_nil
  have ht := h.ne_empty_of_mem (hts ▸ List.mem_cons_self)
  rw [Line.text, hts]
  cases ts with
  | nil => rwa [spaced_singleton]
  | cons u ts =>
    rw [spaced_cons_cons]
    intro he
    simp at he

/-! ## blame -/

/-- the place of the equals sign of an assignment, with `depth` blocks open before its line -/
def Line.signPlace (depth : Nat) (line : Line) : Nat :=
  if line.first = "var" ∨ (depth = 0 ∧ line.first = "const") then 2 else 1

/-- the line at place `i` is there, and if a bracket is to blame it stands in a value on that line -/
def Blames (lines : List Line) (i : Nat) (p : Problem) : Prop :=
  ∃ line, lines[i]? = some line ∧
    ∀ b, p = .unclosedBracket b → line.LeavesOpen (line.signPlace (depthBefore lines i)) b

section
variable {catalog : Catalog} {file : String} {lines : List Line} {i : Nat} {p : Problem}

theorem Outline.RejectsAt.blames (h : RejectsAt catalog file lines i p) : Blames lines i p := by
  obtain ⟨line, hline⟩ := line_of_entryAt (by rw [h]; simp)
  rw [RejectsAt, entryAt_eq catalog file lines hline] at h
  refine ⟨line, hline, ?_⟩
  rintro b rfl
  obtain ⟨hc, hopen⟩ := Entry.leavesOpen_of_ofLine h
  rw [Line.signPlace, if_pos (Or.inr ⟨Entry.depth_of_rejected h, hc⟩)]
  exact hopen

theorem Outline.FailsInBlock.blames (h : FailsInBlock lines i p) : Blames lines i p := by
  obtain ⟨⟨line, hline, hp⟩, hd⟩ := h
  refine ⟨line, hline, ?_⟩
  rintro b rfl
  have hplace : line.signPlace (depthBefore lines i) = if line.first = "var" then 2 else 1 := by
    rw [Line.signPlace]
    simp [hd]
  rw [hplace]
  exact hp.leavesOpen

theorem blames_last (h : depthBefore lines lines.length ≠ 0) :
    Blames lines (lines.length - 1) .unclosedBlock := by
  have hpos : 0 < lines.length := by
    refine Nat.pos_of_ne_zero fun h0 => h ?_
    rw [h0]
    exact depthBefore_zero lines
  exact ⟨_, List.getElem?_eq_getElem (by omega), nofun⟩

end

/-! ## the reports of a source -/

namespace Batch

section
variable (catalog : Catalog) (f : SourceFile)

/-- what is reported on the lines of a source by its outline -/
def foundReports : List (Nat × Problem) :=
  let lines := Line.ofSource f.content
  reportsFrom 0 ((List.range lines.length).flatMap (Outline.eventsAt catalog f.name lines))

/-- what is reported at the end of a source -/
def endReports : List (Nat × Problem) :=
  let lines := Line.ofSource f.content
  if depthBefore lines lines.length = 0 then [] else [(lines.length - 1, .unclosedBlock)]

theorem endReports_cases : endReports f = [] ∨
    depthBefore (Line.ofSource f.content) (Line.ofSource f.content).length ≠ 0 ∧
      endReports f = [((Line.ofSource f.content).length - 1, .unclosedBlock)] := by
  unfold endReports
  by_cases h : depthBefore (Line.ofSource f.content) (Line.ofSource f.content).length = 0
  · exact Or.inl (if_pos h)
  · exact Or.inr ⟨h, if_neg h⟩

/-- what is reported of the elements of a source -/
def builtReports : List (Nat × Problem) :=
  reportsFrom 0 ((Outline.ofLines catalog f.name (Line.ofSource f.content)).headers.flatMap fun h =>
    (build catalog (document f) h).2)

/-- a report on a line of a source, as a diagnostic -/
def stamped (r : Nat × Problem) : Diagnostic :=
  (Remark.ofProblem r.1 r.2).diagnostic f.name (Line.ofSource f.content)

theorem diagnostics_reports : diagnostics catalog f =
    ((foundReports catalog f ++ endReports f).map (stamped f),
      (builtReports catalog f).map (stamped f)) := by
  have houtlined : reportsFrom 0 (Outline.ofLines catalog f.name (Line.ofSource f.content)).events =
      foundReports catalog f ++ endReports f := by
    rw [Outline.events_ofLines, reportsFrom_append, Outline.reportsFrom_atEnd]
    rfl
  rw [diagnostics_findings]
  show ((remarksFrom 0 _).map _, (remarksFrom 0 _).map _) = _
  rw [remarksFrom, houtlined, remarksFrom, List.map_map, List.map_map]
  rfl

theorem reportsFrom_build (d : Document) (h : Header) (i : Nat) :
    reportsFrom i (build catalog d h).2 = reportsFrom i (h.build catalog d.lines).told := by
  rw [build_eq, Traced.told]
  cases (h.build catalog d.lines).result with
  | ok e => rfl
  | error b =>
    rw [reportsFrom_append, reportsFrom_append]
    rfl

theorem tells_found : Tells (Outline.RejectsAt catalog f.name (Line.ofSource f.content)) 0
    (Line.ofSource f.content).length ((List.range (Line.ofSource f.content).length).flatMap
      (Outline.eventsAt catalog f.name (Line.ofSource f.content))) :=
  Outline.tells_found catalog f.name (Line.ofSource f.content)

theorem tells_built : Tells (Outline.FailsInBlock (Line.ofSource f.content)) 0
    (Line.ofSource f.content).length
    ((Outline.ofLines catalog f.name (Line.ofSource f.content)).headers.flatMap fun h =>
      (build catalog (document f) h).2) :=
  Outline.tells_built catalog f.name (fun _ hm => Line.isScanned_of_mem hm) fun h i =>
    reportsFrom_build catalog (document f) h i

end

/-! ## diagnostics point at lines -/

theorem blames_of_mem_reports {catalog : Catalog} {f : SourceFile} {r : Nat × Problem}
    (hr : r ∈ foundReports catalog f ++ endReports f ∨ r ∈ builtReports catalog f) :
    Blames (Line.ofSource f.content) r.1 r.2 := by
  rcases hr with hr | hr
  · rcases List.mem_append.mp hr with hr | hr
    · exact ((tells_found catalog f).faults r hr).blames
    · rcases endReports_cases f with he | ⟨h, he⟩
      · rw [he] at hr
        exact absurd hr List.not_mem_nil
      · rw [he] at hr
        obtain rfl := List.mem_singleton.mp hr
        exact blames_last h
  · exact ((tells_built catalog f).faults r hr).blames

/-- each diagnostic of a batch names one of its sources and a line of what the batch holds under that
name.  It is fatal just if its message is one of the two for brackets, and then a bracket in the value
on that line has no partner -/
theorem diagnostics_placed (catalog : Catalog) (files : List SourceFile) {d : Diagnostic}
    (hd : d ∈ Diagnostics.ofEvents (read catalog files).events) :
    ∃ content line, content? files d.file = some content ∧
      (Line.ofSource content)[d.lineIndex]? = some line ∧
      d.line = line.number ∧ 1 ≤ d.line ∧ d.source = line.text ∧ d.source ≠ "" ∧
      (d.severity = .fatal ↔
        d.message = "Expected a matching ')'" ∨ d.message = "Expected a matching ']'") ∧
      (d.severity = .fatal →
        let sign := line.signPlace (depthBefore (Line.ofSource content) d.lineIndex)
        line.token sign = "=" ∧ ∃ bracket,
          requireClosed line.number (line.tokens.drop (sign + 1)) = .error bracket ∧
            bracket.message = d.message ∧ bracket.line = d.line) := by
  obtain ⟨f, hf, hd⟩ : ∃ f ∈ sources files, d ∈ (diagnostics catalog f).1 ∨
      d ∈ (diagnostics catalog f).2 := by
    rw [diagnostics_read, List.mem_append, List.mem_flatMap, List.mem_flatMap] at hd
    rcases hd with ⟨f, hf, hd⟩ | ⟨f, hf, hd⟩
    · exact ⟨f, hf, Or.inl hd⟩
    · exact ⟨f, hf, Or.inr hd⟩
  have hmem : ∃ r, (r ∈ foundReports catalog f ++ endReports f ∨ r ∈ builtReports catalog f) ∧
      stamped f r = d := by
    rw [diagnostics_reports] at hd
    rcases hd with hd | hd
    · obtain ⟨r, hr, he⟩ := List.mem_map.mp hd
      exact ⟨r, Or.inl hr, he⟩
    · obtain ⟨r, hr, he⟩ := List.mem_map.mp hd
      exact ⟨r, Or.inr hr, he⟩
  obtain ⟨⟨i, p⟩, hr, rfl⟩ := hmem
  obtain ⟨line, hline, hopen⟩ := blames_of_mem_reports hr
  have hscanned : line ∈ Line.ofSource f.content := List.mem_of_getElem? hline
  have hnumber : (stamped f (i, p)).line = line.number := by
    show ((Line.ofSource f.content)[i]?.map Line.number).getD 0 = _
    rw [hline]
    rfl
  have htext : (stamped f (i, p)).source = line.text := by
    show ((Line.ofSource f.content)[i]?.map Line.text).getD "" = _
    rw [hline]
    rfl
  refine ⟨f.content, line, mem_sources.mp hf, hline, hnumber, ?_, htext, ?_,
    Problem.fatal_iff_message, fun hfatal => ?_⟩
  · rw [hnumber]
    exact Line.one_le_number hscanned
  · rw [htext]
    exact (Line.isScanned_of_mem hscanned).text_ne
  · obtain ⟨b, rfl⟩ := Problem.fatal_iff.mp hfatal
    obtain ⟨hsign, hclosed⟩ := hopen b rfl
    exact ⟨hsign, b, hclosed, rfl, (line_of_requireClosed hclosed).trans hnumber.symm⟩

/-- a bracket without a partner in the block of a child, behind a line that is rejected -/
theorem diagnostics_placed_menu :
    let files : List SourceFile :=
      [⟨"m.kml", "element A \x7b y;\nchild UIText \x7b\nt = f(1; \x7d \x7d"⟩, ⟨"m.kml", "x"⟩]
    let d : Diagnostic := ⟨"m.kml", 3, 3, "t = f ( 1", "Expected a matching ')'", .fatal⟩
    d ∈ Diagnostics.ofEvents (read .standard files).events ∧
      ∃ content line, content? files d.file = some content ∧
        (Line.ofSource content)[d.lineIndex]? = some line ∧ line.number = 3 ∧
        ∃ bracket, requireClosed 3 (line.tokens.drop 2) = .error bracket ∧
          bracket.message = d.message := by
  intro files d
  have hd : d ∈ Diagnostics.ofEvents (read .standard files).events := by decide +kernel
  obtain ⟨content, line, hcontent, hline, hnumber, _, _, _, _, hfatal⟩ :=
    diagnostics_placed .standard files hd
  obtain ⟨_, bracket, hclosed, hmessage, _⟩ := hfatal rfl
  have hsource : content = "element A \x7b y;\nchild UIText \x7b\nt = f(1; \x7d \x7d" :=
    (Option.some.inj hcontent).symm
  have hplace : line.signPlace (depthBefore (Line.ofSource content) d.lineIndex) = 1 := by
    rw [hsource] at hline ⊢
    have hfound : line = ⟨["t", "=", "f", "(", "1"], 3⟩ := by
      refine Option.some.inj (hline.symm.trans ?_)
      decide +kernel
    rw [hfound]
    decide +kernel
  have hthree : line.number = 3 := hnumber.symm
  rw [hplace, hthree] at hclosed
  exact ⟨hd, content, line, hcontent, hline, hthree, bracket, hclosed, hmessage⟩

/-! ## diagnostics are in order -/

theorem pairwise_stamped (f : SourceFile) {rs : List (Nat × Problem)}
    (h : rs.Pairwise fun r r' => r.1 < r'.1) :
    ((rs.map (stamped f)).map Diagnostic.lineIndex).Pairwise (· < ·) := by
  rw [List.map_map, List.pairwise_map]
  exact h

/-- the diagnostics of a source are those of its outline and then those of its elements.  Both are in
the order of the lines with at most one for each line, and no line has one of each kind.  A block that
is open at the end is reported last in the outline, whatever else is said of the last line -/
theorem diagnostics_ordered (catalog : Catalog) {files : List SourceFile} {name content : String}
    (hf : content? files name = some content) :
    let (outlined, built) := diagnostics catalog ⟨name, content⟩
    (Diagnostics.ofEvents (read catalog files).events).filter (·.file == name) =
        outlined ++ built ∧
      (∃ found ending, outlined = found ++ ending ∧
        (ending = [] ∨ ∃ d, ending = [d] ∧ d.message = "Expected a closing '\x7d'" ∧
          d.lineIndex + 1 = (Line.ofSource content).length) ∧
        (found.map Diagnostic.lineIndex).Pairwise (· < ·) ∧
        (∀ d ∈ found, ∀ e ∈ ending, d.lineIndex ≤ e.lineIndex) ∧
        ∀ d ∈ found, ∀ e ∈ built, d.lineIndex ≠ e.lineIndex) ∧
      (built.map Diagnostic.lineIndex).Pairwise (· < ·) := by
  let f : SourceFile := ⟨name, content⟩
  have hmem : f ∈ sources files := mem_sources.mpr hf
  have hnodup := nodup_sources files
  have hfilter : (Diagnostics.ofEvents (read catalog files).events).filter (·.file == name) =
      (diagnostics catalog f).1 ++ (diagnostics catalog f).2 := by
    rw [diagnostics_read, List.filter_append]
    exact congrArg₂ (· ++ ·)
      (filter_flatMap_of_file hnodup (fun f d hd => file_of_mem_diagnostics catalog f (.inl hd)) hmem)
      (filter_flatMap_of_file hnodup (fun f d hd => file_of_mem_diagnostics catalog f (.inr hd)) hmem)
  have hfound := tells_found catalog f
  have hbuilt := tells_built catalog f
  rw [diagnostics_reports] at hfilter
  rw [diagnostics_reports]
  refine ⟨hfilter, ⟨(foundReports catalog f).map (stamped f), (endReports f).map (stamped f),
    List.map_append, ?_, pairwise_stamped f hfound.ascending, ?_, ?_⟩,
    pairwise_stamped f hbuilt.ascending⟩
  · rcases endReports_cases f with he | ⟨h, he⟩
    · rw [he]
      exact Or.inl rfl
    · obtain ⟨line, hline, _⟩ := blames_last h
      obtain ⟨hlt, _⟩ := List.getElem?_eq_some_iff.mp hline
      rw [he]
      refine Or.inr ⟨_, rfl, show "Expected a closing " ++ Problem.quoted blockClose = _ by
        decide +kernel, ?_⟩
      show (Line.ofSource content).length - 1 + 1 = _
      exact Nat.sub_add_cancel (Nat.one_le_of_lt hlt)
  · intro d hd e he
    obtain ⟨r, hr, rfl⟩ := List.mem_map.mp hd
    obtain ⟨r', hr', rfl⟩ := List.mem_map.mp he
    have hlt := (hfound.within r hr).2
    rcases endReports_cases f with he | ⟨_, he⟩
    · rw [he] at hr'
      exact absurd hr' List.not_mem_nil
    · rw [he] at hr'
      obtain rfl := List.mem_singleton.mp hr'
      show r.1 ≤ (Line.ofSource content).length - 1
      exact Nat.le_sub_one_of_lt hlt
  · intro d hd e he heq
    obtain ⟨r, hr, rfl⟩ := List.mem_map.mp hd
    obtain ⟨r', hr', rfl⟩ := List.mem_map.mp he
    -- the outline rejects lines outside all blocks only, and elements have their lines in blocks
    have hrejects := hfound.faults r hr
    have hin := (hbuilt.faults r' hr').2
    have hplace : r.1 = r'.1 := heq
    obtain ⟨line, hline⟩ := Outline.line_of_entryAt (by rw [hrejects]; simp)
    rw [Outline.RejectsAt, Outline.entryAt_eq catalog f.name _ hline] at hrejects
    exact hin (hplace ▸ Entry.depth_of_rejected hrejects)

/-- problems of both passes, in a nested child too, and a block that is open behind the last of them -/
theorem diagnostics_ordered_menu :
    let content := "x;element A \x7b y;child UIText \x7b z = (; \x7d \x7delement \x7b \x7d w;" ++
      "element B \x7b v"
    let files : List SourceFile := [⟨"a.kml", "y"⟩, ⟨"m.kml", content⟩]
    content? files "m.kml" = some content ∧
      ((Diagnostics.ofEvents (read .standard files).events).filter (·.file == "m.kml")).map
        (fun d => (d.lineIndex, d.message)) =
        [(0, "Unexpected 'x'"), (7, "Expected a name after 'element'"), (9, "Unexpected 'w'"),
          (11, "Expected a closing '\x7d'"), (2, "Expected '=' after 'y'"),
          (4, "Expected a matching ')'"), (11, "Expected '=' after 'v'")] := by
  intro content files
  have hf : content? files "m.kml" = some content := rfl
  have hdiagnostics := (diagnostics_ordered .standard hf).1
  refine ⟨hf, ?_⟩
  rw [hdiagnostics]
  decide +kernel

end Batch
end Markup
