import Markup.Proofs.Batch.Findings
import Markup.Proofs.Line.Joined

/-!
# Sources cut in two

What becomes of the reading of a source at a place where it is cut.  Blanks may be put there unless it
lies in a string or within a word; only the line numbers of the diagnostics change
(`Batch.read_insert`).  If nothing is begun or open there, the two parts are read as two sources, the
second lowered by the lines of the first (`Batch.read_append`); the passes over the parts alternate,
for the outline of the second part is taken before any element of the first is built.
-/

namespace Markup

/-! ## the stamps of remarks -/

/-- the same diagnostic of a line that is `k` places and `n` source lines further down -/
def Diagnostic.lowered (k n : Nat) (d : Diagnostic) : Diagnostic :=
  { d with lineIndex := d.lineIndex + k, line := d.line + n }

/-- the same but for the number of the source line -/
def Diagnostic.IsRenumbered (d d' : Diagnostic) : Prop := d' = { d with line := d'.line }

namespace Remark

variable {lines lines' : List Line} {r : Remark} (file : String)

theorem diagnostic_append (h : r.index < lines.length) (rest : List Line) :
    r.diagnostic file (lines ++ rest) = r.diagnostic file lines := by
  have hline : (lines ++ rest)[r.index]? = lines[r.index]? := List.getElem?_append_left h
  unfold diagnostic Position.line Position.text
  rw [hline]

theorem diagnostic_lowered (h : r.index < lines'.length) (lines : List Line) (n : Nat) :
    (r.lowered lines.length).diagnostic file (lines ++ lines'.map (Line.lowered n)) =
      (r.diagnostic file lines').lowered lines.length n := by
  have hline : (lines ++ lines'.map (Line.lowered n))[r.index + lines.length]? =
      some (lines'[r.index].lowered n) := by
    rw [List.getElem?_append_right (Nat.le_add_left _ _), Nat.add_sub_cancel, List.getElem?_map,
      List.getElem?_eq_getElem h]
    rfl
  have hline' : lines'[r.index]? = some lines'[r.index] := List.getElem?_eq_getElem h
  show Diagnostic.mk file _ (Position.line _) (Position.text _) _ _ =
    Diagnostic.lowered _ n ⟨file, r.index, Position.line _, Position.text _, _, _⟩
  unfold Position.line Position.text
  simp only [lowered, hline, hline']
  rfl

theorem map_diagnostic_append {rs rs' : List Remark} (n : Nat)
    (hrs : ∀ r ∈ rs, r.index < lines.length) (hrs' : ∀ r ∈ rs', r.index < lines'.length) :
    (rs ++ rs'.map (lowered lines.length)).map
        (diagnostic file (lines ++ lines'.map (Line.lowered n))) =
      rs.map (diagnostic file lines) ++
        (rs'.map (diagnostic file lines')).map (Diagnostic.lowered lines.length n) := by
  rw [List.map_append, List.map_map, List.map_map]
  have hfirst := List.map_congr_left fun r hr => diagnostic_append file (hrs r hr)
    (lines'.map (Line.lowered n))
  have hsecond := List.map_congr_left fun r hr => diagnostic_lowered file (hrs' r hr) lines n
  exact congrArg₂ (· ++ ·) hfirst hsecond

theorem isRenumbered_diagnostic (ht : SameTokens lines lines') (r : Remark) :
    (r.diagnostic file lines).IsRenumbered (r.diagnostic file lines') := by
  have htokens : lines[r.index]?.map Line.tokens = lines'[r.index]?.map Line.tokens := by
    rw [← List.getElem?_map, ← List.getElem?_map, ht]
  have htext : Position.text ⟨file, lines', r.index⟩ = Position.text ⟨file, lines, r.index⟩ := by
    have hline : ∀ line? : Option Line,
        line?.map Line.text = (line?.map Line.tokens).map spaced := by
      intro line?
      cases line? <;> rfl
    unfold Position.text
    rw [hline, hline, htokens]
  unfold Diagnostic.IsRenumbered diagnostic
  rw [htext]

end Remark

namespace Batch

variable (catalog : Catalog)

/-! ## blanks -/

/-- sources with the same tokens are read alike, apart from the numbers of the lines -/
theorem read_of_sameTokens (name : String) {a b : String}
    (ht : SameTokens (Line.ofSource a) (Line.ofSource b)) :
    (read catalog [⟨name, a⟩]).declarations = (read catalog [⟨name, b⟩]).declarations ∧
      List.Forall₂ Diagnostic.IsRenumbered
        (Diagnostics.ofEvents (read catalog [⟨name, a⟩]).events)
        (Diagnostics.ofEvents (read catalog [⟨name, b⟩]).events) := by
  have hfindings := Findings.ofLines_congr catalog name ht
  have hstamped : ∀ rs : List Remark, List.Forall₂ Diagnostic.IsRenumbered
      (rs.map (Remark.diagnostic name (Line.ofSource a)))
      (rs.map (Remark.diagnostic name (Line.ofSource b))) := by
    intro rs
    rw [List.forall₂_map_left_iff, List.forall₂_map_right_iff, List.forall₂_same]
    exact fun r _ => Remark.isRenumbered_diagnostic name ht r
  constructor
  · rw [declarations_singleton, declarations_singleton, declared_findings, declared_findings,
      hfindings]
  · rw [diagnostics_singleton, diagnostics_singleton, diagnostics_findings, diagnostics_findings,
      hfindings]
    simp only
    exact List.rel_append (hstamped _) (hstamped _)

/-- blanks that are put into a source, but neither into a string nor into a word, change no token,
no declaration, and of the diagnostics only the numbers of the source lines -/
theorem read_insert {a b w : String} (ha : a.toList.count '"' % 2 = 0)
    (hw : ∀ c ∈ w.toList, c = ' ' ∨ c = '\t' ∨ c = '\n' ∨ c = '\r')
    (hcut : ¬((∃ c, a.toList.getLast? = some c ∧ CharClass.of c = .word) ∧
      ∃ c, b.toList.head? = some c ∧ CharClass.of c = .word)) :
    (Line.ofSource (a ++ w ++ b)).map Line.tokens = (Line.ofSource (a ++ b)).map Line.tokens ∧
      ∀ (catalog : Catalog) (name : String),
        let r := read catalog [⟨name, a ++ b⟩]
        let r' := read catalog [⟨name, a ++ w ++ b⟩]
        r'.declarations = r.declarations ∧ List.Forall₂ Diagnostic.IsRenumbered
          (Diagnostics.ofEvents r'.events) (Diagnostics.ofEvents r.events) := by
  have ht := Line.sameTokens_insert ha (fun c hc => CharClass.of_eq_blank.mpr (hw c hc)) hcut
  exact ⟨ht, fun catalog name => read_of_sameTokens catalog name ht⟩

/-- a newline and two more blanks, between a name and the operator behind it -/
theorem read_insert_menu :
    let a := "element A \x7b s"
    let b := "=\"t\"; y \x7d"
    let r := read .standard [⟨"m.kml", a ++ b⟩]
    let r' := read .standard [⟨"m.kml", a ++ "\n\t " ++ b⟩]
    a.toList.count '"' % 2 = 0 ∧ r'.declarations = r.declarations ∧
      List.Forall₂ Diagnostic.IsRenumbered
        (Diagnostics.ofEvents r'.events) (Diagnostics.ofEvents r.events) := by
  intro a b r r'
  have ha : a.toList.count '"' % 2 = 0 := by decide +kernel
  have hblanks : "\n\t ".toList = ['\n', '\t', ' '] := by decide +kernel
  have hw : ∀ c ∈ "\n\t ".toList, c = ' ' ∨ c = '\t' ∨ c = '\n' ∨ c = '\r' := by
    rw [hblanks]
    simp
  have hcut : ¬((∃ c, a.toList.getLast? = some c ∧ CharClass.of c = .word) ∧
      ∃ c, b.toList.head? = some c ∧ CharClass.of c = .word) := by
    rintro ⟨_, c, hc, hword⟩
    have hhead : b.toList.head? = some '=' := by decide +kernel
    obtain rfl : '=' = c := Option.some.inj (hhead.symm.trans hc)
    exact absurd hword (by decide)
  obtain ⟨_, hread⟩ := read_insert ha hw hcut
  exact ⟨ha, hread .standard "m.kml"⟩

/-! ## sources that are joined -/

/-- a source that ends between two statements, with no block open -/
structure IsComplete (source : String) : Prop where
  idle : (Scan.ofText source).IsIdle
  closed : depthBefore (Line.ofSource source) (Line.ofSource source).length = 0

section
variable {a : String} (ha : IsComplete a) (b name : String)
include ha

theorem findings_append : Findings.ofLines catalog name (Line.ofSource (a ++ b)) =
    (Findings.ofLines catalog name (Line.ofSource a)).append
      ((Findings.ofLines catalog name (Line.ofSource b)).lowered (Line.ofSource a).length) := by
  have ht : SameTokens (Line.ofSource b) ((Line.ofSource b).map (Line.lowered (newlines a))) := by
    rw [SameTokens, List.map_map]
    rfl
  rw [Line.ofSource_append ha.idle]
  exact Findings.ofLines_append catalog name (fun _ hm => Line.isScanned_of_mem hm) ha.closed ht

theorem declared_append :
    declared catalog ⟨name, a ++ b⟩ =
      ⟨(declared catalog ⟨name, a⟩).elements ++ (declared catalog ⟨name, b⟩).elements,
        (declared catalog ⟨name, a⟩).constants ++ (declared catalog ⟨name, b⟩).constants⟩ := by
  rw [declared_findings, declared_findings, declared_findings, findings_append catalog ha]
  rfl

theorem diagnostics_append :
    let lowered := List.map (Diagnostic.lowered (Line.ofSource a).length (newlines a))
    diagnostics catalog ⟨name, a ++ b⟩ =
      ((diagnostics catalog ⟨name, a⟩).1 ++ lowered (diagnostics catalog ⟨name, b⟩).1,
        (diagnostics catalog ⟨name, a⟩).2 ++ lowered (diagnostics catalog ⟨name, b⟩).2) := by
  intro lowered
  rw [diagnostics_findings, diagnostics_findings, diagnostics_findings, findings_append catalog ha,
    Line.ofSource_append ha.idle]
  -- each remark is made on a line of its own source, which gives the stamp
  have hout := Remark.map_diagnostic_append name (newlines a)
    (Findings.index_lt_outlined catalog name (Line.ofSource a))
    (Findings.index_lt_outlined catalog name (Line.ofSource b))
  have hbuilt := Remark.map_diagnostic_append name (newlines a)
    (Findings.index_lt_built catalog name (Line.ofSource a))
    (Findings.index_lt_built catalog name (Line.ofSource b))
  simp only [Findings.append, Findings.lowered]
  rw [hout, hbuilt]

end

/-- a source behind a complete one declares what it declares alone, and it has the diagnostics that
it has alone, lowered by the lines before it; in each pass those of the first source come first -/
theorem read_append {a : String} (ha : IsComplete a) (b name : String) :
    let r := fun source => read catalog [⟨name, source⟩]
    let found := fun source => diagnostics catalog ⟨name, source⟩
    let lowered := List.map (Diagnostic.lowered (Line.ofSource a).length (newlines a))
    (r (a ++ b)).declarations.elements =
        (r a).declarations.elements ++ (r b).declarations.elements ∧
      (r (a ++ b)).declarations.constants =
        (r a).declarations.constants ++ (r b).declarations.constants ∧
      Diagnostics.ofEvents (r (a ++ b)).events = (found a).1 ++ lowered (found b).1 ++
        ((found a).2 ++ lowered (found b).2) ∧
      ∀ source, Diagnostics.ofEvents (r source).events = (found source).1 ++ (found source).2 := by
  intro r found lowered
  have hdeclared : ∀ source, (r source).declarations = declared catalog ⟨name, source⟩ :=
    fun source => declarations_singleton catalog ⟨name, source⟩
  have hfound : ∀ source,
      Diagnostics.ofEvents (r source).events = (found source).1 ++ (found source).2 :=
    fun source => diagnostics_singleton catalog ⟨name, source⟩
  have happend : found (a ++ b) = ((found a).1 ++ lowered (found b).1,
      (found a).2 ++ lowered (found b).2) := diagnostics_append catalog ha b name
  refine ⟨?_, ?_, ?_, hfound⟩
  · rw [hdeclared, hdeclared, hdeclared, declared_append catalog ha]
  · rw [hdeclared, hdeclared, hdeclared, declared_append catalog ha]
  · rw [hfound, happend]

/-- two sources, each with a problem of the outline and one of an element -/
theorem read_append_menu :
    let a := "x;\nelement A \x7b y \x7d\n"
    let b := "const K = 1\n;element \x7b\n\x7delement B \x7b\nz \x7d"
    let r := read .standard [⟨"m.kml", a ++ b⟩]
    IsComplete a ∧ r.declarations.elements.map (·.root.typeName) = ["A", "B"] ∧
      (Diagnostics.ofEvents r.events).map (fun d => (d.lineIndex, d.line, d.message)) =
        [(0, 1, "Unexpected 'x'"), (5, 4, "Expected a name after 'element'"),
          (2, 2, "Expected '=' after 'y'"), (8, 6, "Expected '=' after 'z'")] := by
  intro a b r
  have ha : IsComplete a := ⟨⟨by decide +kernel, by decide +kernel, by decide +kernel⟩,
    by decide +kernel⟩
  obtain ⟨helements, _, hdiagnostics, _⟩ := read_append .standard ha b "m.kml"
  refine ⟨ha, ?_, ?_⟩
  · show (read _ _).declarations.elements.map _ = _
    rw [helements]
    decide +kernel
  · show (Diagnostics.ofEvents (read _ _).events).map _ = _
    rw [hdiagnostics]
    decide +kernel

end Batch
end Markup
