import Markup.Proofs.Batch.Findings
import Markup.Proofs.Line.Detached
import Markup.Proofs.Outline.Detached

/-!
# Attached and detached openers mean the same

A terminator before the opener of a child detaches it, and the source is read as before
(`Batch.read_detached`).  Only the places of its diagnostics move.
-/

namespace Markup

/-! ## what a diagnostic says -/

theorem map_diagnostic_remarks (file : String) (lines : List Line) (events : List Event) :
    ((remarksFrom 0 events).map (Remark.diagnostic file lines)).map
        (fun d => (d.file, d.message, d.severity)) =
      (problemsOf events).map fun p => (file, p.message, p.severity) := by
  rw [← map_reportsFrom 0, remarksFrom, List.map_map, List.map_map, List.map_map]
  rfl

namespace Batch

variable (catalog : Catalog)

/-! ## lines with detached openers -/

section
variable {d d' : Document}

theorem build_matches {h h' : Header} (hh : h.Precedes d.lines d'.lines h') :
    problemsOf (build catalog d' h').2 = problemsOf (build catalog d h).2 := by
  have hm := hh.build_matches catalog
  have hresult := hm.result
  rw [build_eq, build_eq]
  cases hr : (h.build catalog d.lines).result with
  | ok e =>
    rw [hr] at hresult
    rw [hresult]
    exact hm.problems
  | error b =>
    rw [hr] at hresult
    rw [hresult]
    show problemsOf ((h'.build catalog d'.lines).events ++ _) =
      problemsOf ((h.build catalog d.lines).events ++ _)
    rw [problemsOf_append, problemsOf_append, hm.problems]
    rfl

theorem flatMap_build_matches (d d' : Document) {hs hs' : List Header}
    (h : List.Forall₂ (Header.Precedes d.lines d'.lines) hs hs') :
    problemsOf (hs'.flatMap fun h => (build catalog d' h).2) =
      problemsOf (hs.flatMap fun h => (build catalog d h).2) := by
  induction h with
  | nil => rfl
  | cons hh _ ih =>
    rw [List.flatMap_cons, List.flatMap_cons, problemsOf_append, problemsOf_append, ih,
      build_matches catalog hh]

theorem builtFrom_matches {lines lines' : List Line} {hs hs' : List Header}
    (h : List.Forall₂ (Header.Precedes lines lines') hs hs') :
    builtFrom catalog lines' hs' = builtFrom catalog lines hs := by
  induction h with
  | nil => rfl
  | @cons h h' hs hs' hh _ ih =>
    have hresult := (hh.build_matches catalog).result
    unfold builtFrom at ih ⊢
    rw [List.filterMap_cons, List.filterMap_cons, hresult, ih]

end

theorem read_of_detaches (name : String) {a b : String}
    (h : Detaches 0 (Line.ofSource a) (Line.ofSource b)) :
    (read catalog [⟨name, b⟩]).declarations = (read catalog [⟨name, a⟩]).declarations ∧
      (Diagnostics.ofEvents (read catalog [⟨name, b⟩]).events).map
          (fun d => (d.file, d.message, d.severity)) =
        (Diagnostics.ofEvents (read catalog [⟨name, a⟩]).events).map
          fun d => (d.file, d.message, d.severity) := by
  have ho : (Outline.ofLines catalog name (Line.ofSource a)).Matches (Line.ofSource a)
      (Line.ofSource b) (Outline.ofLines catalog name (Line.ofSource b)) :=
    Outline.matches_ofLinesFrom catalog name h List.drop_zero List.drop_zero
  constructor
  · rw [declarations_singleton, declarations_singleton, declared_findings, declared_findings]
    show Declarations.mk (builtFrom catalog (Line.ofSource b) _) _ =
      Declarations.mk (builtFrom catalog (Line.ofSource a) _) _
    rw [builtFrom_matches catalog ho.headers]
    exact congrArg (Declarations.mk _) ho.constants
  · have hsaid : ∀ source, (Diagnostics.ofEvents (read catalog [⟨name, source⟩]).events).map
        (fun d => (d.file, d.message, d.severity)) =
          (problemsOf (Outline.ofLines catalog name (Line.ofSource source)).events ++
            problemsOf ((Outline.ofLines catalog name (Line.ofSource source)).headers.flatMap
              fun h => (build catalog ⟨name, Line.ofSource source⟩ h).2)).map
            fun p => (name, p.message, p.severity) := by
      intro source
      rw [diagnostics_singleton, diagnostics_findings, List.map_append, List.map_append]
      exact congrArg₂ (· ++ ·) (map_diagnostic_remarks _ _ _) (map_diagnostic_remarks _ _ _)
    rw [hsaid, hsaid, ho.problems,
      flatMap_build_matches catalog ⟨name, Line.ofSource a⟩ ⟨name, Line.ofSource b⟩ ho.headers]

/-! ## a terminator before an opener -/

theorem isChildHeader_of_tokens {line : Line} (hs : line.IsScanned) {ts : List String}
    (hform : (∃ typeName, ts = ["child", typeName]) ∨
      ∃ typeName name, ts = ["child", typeName, name])
    (ht : line.tokens = ts ++ [blockOpen]) : IsChildHeader ts := by
  refine ⟨hform, ?_⟩
  cases hs with
  | closer h =>
    rcases hform with ⟨_, rfl⟩ | ⟨_, _, rfl⟩ <;> exact absurd (ht.symm.trans h) (by simp)
  | plain _ h =>
    have hmem : blockOpen ∈ line.tokens := ht ▸ List.mem_append_right _ List.mem_cons_self
    exact absurd rfl (h _ hmem).ne_blockOpen
  | opener us h hus =>
    obtain rfl : ts = us := List.append_cancel_right (ht.symm.trans hus)
    exact fun t hm => ⟨(h t hm).ne_empty, (h t hm).ne_blockOpen, (h t hm).ne_blockClose⟩

/-- a line in a block is the header of a child and ends in an opener.  The opener has a place in the
source, and with a terminator before that place it is a line of its own; the source then declares
what it declared, and its diagnostics say the same of the same source -/
theorem read_detached {source : String} {i : Nat} {line : Line} {ts : List String}
    (hline : (Line.ofSource source)[i]? = some line)
    (hd : depthBefore (Line.ofSource source) i ≠ 0)
    (hform : (∃ typeName, ts = ["child", typeName]) ∨
      ∃ typeName name, ts = ["child", typeName, name])
    (ht : line.tokens = ts ++ [blockOpen]) :
    (∃ a b, IsOpenerOf source i a b) ∧ ∀ a b, IsOpenerOf source i a b →
      let detached := a ++ ";\x7b" ++ b
      (∃ before rest n m, before.length = i ∧
        Line.ofSource source = before ++ ⟨ts ++ [blockOpen], n⟩ :: rest ∧
        Line.ofSource detached = before ++ ⟨ts, n⟩ :: ⟨[blockOpen], m⟩ :: rest) ∧
      ∀ (catalog : Catalog) (name : String),
        let r := read catalog [⟨name, source⟩]
        let r' := read catalog [⟨name, detached⟩]
        r'.declarations = r.declarations ∧
          (Diagnostics.ofEvents r'.events).map (fun d => (d.file, d.message, d.severity)) =
            (Diagnostics.ofEvents r.events).map fun d => (d.file, d.message, d.severity) := by
  have hscanned := Line.isScanned_of_mem (List.mem_of_getElem? hline)
  have hheader := isChildHeader_of_tokens hscanned hform ht
  have hne : ts ≠ [] := by rcases hform with ⟨_, rfl⟩ | ⟨_, _, rfl⟩ <;> simp
  refine ⟨exists_isOpenerOf hline (Line.endsOpen_of_tokens ht), fun a b h => ?_⟩
  obtain ⟨before, rest, n, m, hi, hsource, hdetached⟩ := Line.ofSource_detached h hline hne ht
  refine ⟨⟨before, rest, n, m, hi, hsource, hdetached⟩, fun catalog name => ?_⟩
  have hdepth : before.foldl depthAfter 0 ≠ 0 := by
    rw [depthBefore, hsource, ← hi, List.take_left] at hd
    exact hd
  have hdetaches : Detaches 0 (Line.ofSource source) (Line.ofSource (a ++ ";\x7b" ++ b)) := by
    rw [hsource, hdetached]
    exact .append before (.child hdepth hheader n m (detaches_refl _ rest))
  exact read_of_detaches catalog name hdetaches

/-- a nested child with an empty block, the blocks around it left open, and problems on lines before
and behind it -/
theorem read_detached_menu :
    let a := "element Menu \x7b x; child UIContainer \x7b child UIText label "
    let b := " \x7d y = (1;\n"
    let r := read .standard [⟨"m.kml", a ++ blockOpen ++ b⟩]
    let r' := read .standard [⟨"m.kml", a ++ ";\x7b" ++ b⟩]
    r'.declarations = r.declarations ∧
      (Diagnostics.ofEvents r'.events).map (fun d => (d.file, d.message, d.severity)) =
        [("m.kml", "Expected a closing '\x7d'", .error), ("m.kml", "Expected '=' after 'x'", .error),
          ("m.kml", "Expected a matching ')'", .fatal)] := by
  intro a b r r'
  have hopener : IsOpenerOf (a ++ blockOpen ++ b) 3 a b := ⟨rfl, by decide +kernel⟩
  have hline : (Line.ofSource (a ++ blockOpen ++ b))[3]? =
      some ⟨["child", "UIText", "label"] ++ [blockOpen], 1⟩ := by decide +kernel
  have hd : depthBefore (Line.ofSource (a ++ blockOpen ++ b)) 3 ≠ 0 := by decide +kernel
  obtain ⟨_, hread⟩ := read_detached hline hd (Or.inr ⟨"UIText", "label", rfl⟩) rfl
  obtain ⟨hdeclarations, hdiagnostics⟩ := (hread a b hopener).2 .standard "m.kml"
  refine ⟨hdeclarations, hdiagnostics.trans ?_⟩
  decide +kernel

end Batch
end Markup
