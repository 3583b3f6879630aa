import Markup.Proofs.Batch.Isolation
import Markup.Proofs.Batch.Origin
import Markup.Proofs.Block.Closed
import Markup.Proofs.Outline.Echo

/-!
# What is found in a source

The findings of a source are its declarations and the remarks on its lines, apart for the two passes.
They depend on the tokens of the lines only (`Findings.ofLines_congr`), and those of two sources of
which the first leaves no block open are put together (`Findings.ofLines_append`).  The declarations
and the diagnostics of a batch are read off them (`Batch.declared_findings`,
`Batch.diagnostics_findings`).
-/

namespace Markup

/-! ## the elements of headers -/

theorem builtFrom_append (catalog : Catalog) (lines : List Line) (hs hs' : List Header) :
    builtFrom catalog lines (hs ++ hs') =
      builtFrom catalog lines hs ++ builtFrom catalog lines hs' := List.filterMap_append

theorem builtFrom_echoes {catalog catalog' : Catalog} {f : Element → Element} {k : Nat}
    (hf : Retypes catalog catalog' f) {hs hs' : List Header}
    (hroot : ∀ h ∈ hs, f (.bare h.name .userDefined) = .bare h.name .userDefined)
    (hh : List.Forall₂ (Header.IsLowered k) hs hs') {lines lines' : List Line}
    (ht : SameTokens lines (lines'.drop k)) :
    builtFrom catalog' lines' hs' = (builtFrom catalog lines hs).map (DeclaredElement.mapRoot f) := by
  induction hh with
  | nil => rfl
  | @cons h h' hs hs' hh _ ih =>
    obtain ⟨hroot, hroots⟩ := List.forall_mem_cons.mp hroot
    have hone := (Header.build_echoes hf hh hroot ht).toOption
    cases hb : (h.build catalog lines).result.toOption with
    | none =>
      rw [hb] at hone
      have hcons : builtFrom catalog lines (h :: hs) = builtFrom catalog lines hs :=
        List.filterMap_cons_none hb
      rw [hcons, ← ih hroots]
      exact List.filterMap_cons_none hone
    | some e =>
      rw [hb] at hone
      have hcons : builtFrom catalog lines (h :: hs) = e :: builtFrom catalog lines hs :=
        List.filterMap_cons_some hb
      rw [hcons, List.map_cons, ← ih hroots]
      exact List.filterMap_cons_some hone

/-- a bracket that ends the reading of an element is on a line that was looked at -/
theorem Header.events_of_error {catalog : Catalog} {lines : List Line} {h : Header} {b : Unclosed}
    (he : (h.build catalog lines).result = .error b) :
    ∃ note index events, (h.build catalog lines).events =
      .note note :: .line index :: events := by
  rw [Header.build] at he ⊢
  cases hd : lines.drop (h.start + 1) with
  | nil =>
    rw [hd, readBlock_nil] at he
    exact absurd he (by simp [Traced.after, Traced.bind, Traced.pure])
  | cons line rest =>
    rw [readBlock, Traced.after_bind]
    exact ⟨_, _, _, rfl⟩

namespace Batch

variable (catalog : Catalog) (d : Document) {h h' : Header}

theorem looksFirst_build (h : Header) : LooksFirst (build catalog d h).2 := by
  have hbuild := (Header.reads_build catalog d.lines h).2
  rw [build_eq]
  cases hr : (h.build catalog d.lines).result with
  | ok e => exact hbuild
  | error b =>
    -- the problem is added behind the line that was looked at last, and there is one
    obtain ⟨note, index, events, he⟩ := Header.events_of_error hr
    rw [he]
    exact fun _ _ => rfl

theorem isWithin_build (hs : h.start < d.lines.length) :
    ∀ x ∈ (build catalog d h).2, x.IsWithin 0 d.lines.length := by
  have hbuild : ∀ x ∈ (h.build catalog d.lines).events, x.IsWithin 0 d.lines.length := by
    intro x hx
    have hle := blockLength_le 0 (d.lines.drop (h.start + 1))
    rw [List.length_drop] at hle
    exact ((Header.reads_build catalog d.lines h).1.within x hx).mono (Nat.zero_le _) (by omega)
  rw [build_eq]
  cases (h.build catalog d.lines).result with
  | ok e => exact hbuild
  | error b => exact List.forall_mem_append.mpr ⟨hbuild, by simp [Event.IsWithin]⟩

variable {d} {d' : Document} {k : Nat}

theorem build_echoes (hh : h.IsLowered k h') (ht : SameTokens d.lines (d'.lines.drop k)) :
    Echoes k (build catalog d h).2 (build catalog d' h').2 := by
  have hroot : id (Element.bare h.name .userDefined) = .bare h.name .userDefined := rfl
  have he := Header.build_echoes (retypes_id catalog) hh hroot ht
  obtain ⟨a, hr, hs⟩ | ⟨b, b', hr, hs, hb⟩ := he.result_cases
  · rw [build_eq, build_eq, hr, hs]
    exact he.events
  · rw [build_eq, build_eq, hr, hs]
    exact he.events.append ((echoes_note k _ _).append (echoes_unclosed k hb))

end Batch

/-! ## findings -/

/-- what is found in a source: its declarations, and the remarks on its outline and on its
elements -/
structure Findings where
  elements : List DeclaredElement
  constants : List Constant
  outlined : List Remark
  built : List Remark

namespace Findings

def append (x y : Findings) : Findings :=
  ⟨x.elements ++ y.elements, x.constants ++ y.constants, x.outlined ++ y.outlined,
    x.built ++ y.built⟩

/-- the same findings, `k` lines further down -/
def lowered (k : Nat) (x : Findings) : Findings :=
  { x with
    outlined := x.outlined.map (Remark.lowered k)
    built := x.built.map (Remark.lowered k) }

/-- what is found in some lines by their outline -/
def ofOutline (catalog : Catalog) (d : Document) (o : Outline) : Findings where
  elements := builtFrom catalog d.lines o.headers
  constants := o.constants
  outlined := remarksFrom 0 o.events
  built := remarksFrom 0 (o.headers.flatMap fun h => (Batch.build catalog d h).2)

def ofLines (catalog : Catalog) (file : String) (lines : List Line) : Findings :=
  ofOutline catalog ⟨file, lines⟩ (Outline.ofLines catalog file lines)

theorem lowered_zero (x : Findings) : x.lowered 0 = x := by
  have hid : ∀ rs : List Remark, rs.map (Remark.lowered 0) = rs := fun rs => List.map_id rs
  show Findings.mk _ _ _ _ = x
  rw [hid, hid]

variable (catalog : Catalog) (file : String)

theorem looksFirst_built (d : Document) (hs : List Header) :
    LooksFirst (hs.flatMap fun h => (Batch.build catalog d h).2) :=
  looksFirst_flatMap fun h _ => Batch.looksFirst_build catalog d h

theorem ofOutline_append (d : Document) (o : Outline) {o' : Outline} (h : LooksFirst o'.events) :
    ofOutline catalog d (o.append o') =
      (ofOutline catalog d o).append (ofOutline catalog d o') := by
  have hout : remarksFrom 0 (o.append o').events = remarksFrom 0 o.events ++
      remarksFrom 0 o'.events := by
    show remarksFrom 0 (o.events ++ o'.events) = _
    rw [remarksFrom_append, h.remarksFrom_eq _ 0]
  have hbuilt : remarksFrom 0 ((o.append o').headers.flatMap fun h => (Batch.build catalog d h).2) =
      (ofOutline catalog d o).built ++ (ofOutline catalog d o').built := by
    show remarksFrom 0 ((o.headers ++ o'.headers).flatMap _) = _
    rw [List.flatMap_append, remarksFrom_append,
      (looksFirst_built catalog d o'.headers).remarksFrom_eq _ 0]
    rfl
  show Findings.mk (builtFrom catalog d.lines (o.headers ++ o'.headers)) _ _ _ = _
  rw [builtFrom_append, hout, hbuilt]
  rfl

theorem ofOutline_congr {d d' : Document} {o : Outline}
    (h : ∀ h ∈ o.headers, h.build catalog d'.lines = h.build catalog d.lines) :
    ofOutline catalog d' o = ofOutline catalog d o := by
  have helements : builtFrom catalog d'.lines o.headers = builtFrom catalog d.lines o.headers :=
    List.filterMap_congr fun header hm => congrArg (·.result.toOption) (h header hm)
  have hbuild : (o.headers.flatMap fun h => (Batch.build catalog d' h).2) =
      o.headers.flatMap fun h => (Batch.build catalog d h).2 := by
    refine List.flatMap_congr fun header hm => ?_
    rw [Batch.build_eq, Batch.build_eq, h header hm]
  show Findings.mk (builtFrom catalog d'.lines o.headers) _ _ (remarksFrom 0 _) = _
  rw [helements, hbuild]
  rfl

theorem ofOutline_echoes {d d' : Document} {o o' : Outline} {k : Nat} (ho : o.Echoes k o')
    (h : LooksFirst o'.events) (ht : SameTokens d.lines (d'.lines.drop k)) :
    ofOutline catalog d' o' = (ofOutline catalog d o).lowered k := by
  have helements : builtFrom catalog d'.lines o'.headers = builtFrom catalog d.lines o.headers :=
    (builtFrom_echoes (retypes_id catalog) (fun _ _ => rfl) ho.headers ht).trans (List.map_id _)
  have hout : remarksFrom 0 o'.events = (remarksFrom 0 o.events).map (Remark.lowered k) :=
    (h.remarksFrom_eq 0 (0 + k)).trans (ho.events.remarks 0)
  have hbuild := echoes_flatMap (fun h h' hh => Batch.build_echoes catalog hh ht) ho.headers
  have hbuilt : (ofOutline catalog d' o').built =
      (ofOutline catalog d o).built.map (Remark.lowered k) :=
    ((looksFirst_built catalog d' o'.headers).remarksFrom_eq 0 (0 + k)).trans (hbuild.remarks 0)
  show Findings.mk _ o'.constants _ (ofOutline catalog d' o').built = _
  rw [helements, ho.constants, hout, hbuilt]
  rfl

/-- lines behind others that leave no block open -/
theorem ofLines_append {lines lines' rest : List Line} (hl : ∀ line ∈ lines, line.IsScanned)
    (h0 : depthBefore lines lines.length = 0) (ht : SameTokens lines' rest) :
    ofLines catalog file (lines ++ rest) =
      (ofLines catalog file lines).append ((ofLines catalog file lines').lowered lines.length) := by
  have hfold : lines.foldl depthAfter 0 = 0 := by
    rw [depthBefore, List.take_length] at h0
    exact h0
  have hlooks := Outline.looksFirst_ofLinesFrom catalog file (0 + lines.length) rest
  have houtline := Outline.ofLinesFrom_append catalog file hfold 0 rest
  have hechoes := Outline.ofLinesFrom_echoes catalog file (k := lines.length) 0 0 (.inl rfl) ht
  have hdrop : SameTokens lines' ((lines ++ rest).drop lines.length) := by
    rw [List.drop_left]
    exact ht
  have hrest : ofOutline catalog ⟨file, lines ++ rest⟩ (Outline.ofLinesFrom catalog file 0
      (0 + lines.length) rest) = (ofLines catalog file lines').lowered lines.length :=
    ofOutline_echoes catalog hechoes hlooks hdrop
  have hfirst : ofOutline catalog ⟨file, lines ++ rest⟩ (Outline.ofLines catalog file lines) =
      ofLines catalog file lines :=
    ofOutline_congr catalog fun h hm => Header.build_append hl h0 hm rest
  show ofOutline catalog _ (Outline.ofLinesFrom catalog file 0 0 (lines ++ rest)) = _
  rw [houtline, ofOutline_append catalog _ _ hlooks, hrest]
  exact congrArg (append · _) hfirst

/-- the findings do not depend on the numbers of the lines -/
theorem ofLines_congr {lines lines' : List Line} (ht : SameTokens lines lines') :
    ofLines catalog file lines' = ofLines catalog file lines := by
  have hechoes := Outline.ofLinesFrom_echoes catalog file (k := 0) 0 0 (.inl rfl) ht
  have hlooks := Outline.looksFirst_ofLinesFrom catalog file 0 lines'
  exact (ofOutline_echoes catalog hechoes hlooks ht).trans (lowered_zero _)

/-! ### remarks are made on lines of the source -/

theorem index_lt_outlined (lines : List Line) :
    ∀ r ∈ (ofLines catalog file lines).outlined, r.index < lines.length := by
  have hw := Outline.isWithin_ofLinesFrom catalog file 0 0 (.inl rfl) lines
  rw [Nat.zero_add] at hw
  exact (Outline.looksFirst_ofLinesFrom catalog file 0 lines).index_lt hw 0

theorem index_lt_built (lines : List Line) :
    ∀ r ∈ (ofLines catalog file lines).built, r.index < lines.length := by
  refine (looksFirst_built catalog ⟨file, lines⟩ _).index_lt (fun x hx => ?_) 0
  obtain ⟨h, hm, hx⟩ := List.mem_flatMap.mp hx
  exact Batch.isWithin_build catalog ⟨file, lines⟩
    (Outline.depthBefore_of_mem_headers catalog file hm).1 x hx

end Findings

/-! ## batches -/

namespace Batch

variable (catalog : Catalog) (f : SourceFile)

theorem declared_findings : declared catalog f =
    ⟨(Findings.ofLines catalog f.name (Line.ofSource f.content)).elements,
      (Findings.ofLines catalog f.name (Line.ofSource f.content)).constants⟩ :=
  declared_eq catalog f

theorem ofEvents_outline (d : Document) : Diagnostics.ofEvents (outline catalog d).events =
    (remarksFrom 0 (Outline.ofLines catalog d.name d.lines).events).map
      (Remark.diagnostic d.name d.lines) :=
  Diagnostics.ofEvents_source d.name d.lines
    (Outline.isLocal_ofLinesFrom catalog d.name 0 0 d.lines)

theorem ofEvents_buildAll (d : Document) (hs : List Header) :
    Diagnostics.ofEvents (buildAll catalog d hs).2 =
      (remarksFrom 0 (hs.flatMap fun h => (build catalog d h).2)).map
        (Remark.diagnostic d.name d.lines) := by
  cases hs with
  | nil => rfl
  | cons h hs =>
    have hlocal : ∀ x ∈ (h :: hs).flatMap fun h => (build catalog d h).2, x.IsLocal := by
      intro x hx
      obtain ⟨h, _, hx⟩ := List.mem_flatMap.mp hx
      exact isLocal_build catalog d h x hx
    show Diagnostics.ofEvents (.source d.name d.lines ::
      ((h :: hs).map (build catalog d)).flatMap Prod.snd) = _
    rw [List.flatMap_map]
    exact Diagnostics.ofEvents_source d.name d.lines hlocal

theorem diagnostics_findings :
    let findings := Findings.ofLines catalog f.name (Line.ofSource f.content)
    let stamped := Remark.diagnostic f.name (Line.ofSource f.content)
    diagnostics catalog f = (findings.outlined.map stamped, findings.built.map stamped) := by
  show (Diagnostics.ofEvents (outline catalog (document f)).events, Diagnostics.ofEvents
    (buildAll catalog (document f) (outline catalog (document f)).headers).2) = _
  rw [ofEvents_outline, ofEvents_buildAll]
  rfl

end Batch
end Markup
