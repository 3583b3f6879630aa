import Markup.Batch
import Markup.Proofs.Block.Printed
import Markup.Proofs.Diagnostic
import Markup.Proofs.Outline.Extent

/-!
# Reading undoes writing

Declarations that are written as a source are read again, without a problem.  An outline finds the
header of each root and passes over the lines behind it (`Outline.Passes`), and from these lines the
machine reads the root (`Header.build_printed`).
-/

namespace Markup

/-! ## the outline of printed declarations -/

namespace Entry

variable {line : Line}

theorem ofLine_constant {c : Constant} (h : c.IsPrintable) (ht : line.tokens = c.sentence.tokens)
    (catalog : Catalog) (file : String) (index : Nat) :
    ofLine catalog file 0 index line = constant c ∧ depthAfter 0 line = 0 := by
  rw [h.sentence.2] at ht
  have hf : line.first = "const" := by rw [Line.first, Line.token, ht]; rfl
  have h1 : line.token 1 = c.name := by rw [Line.token, ht]; rfl
  have h2 : line.token 2 = "=" := by rw [Line.token, ht]; rfl
  have h3 : line.tokens.drop 3 = tokensOf c.value := by rw [ht]; rfl
  have hname : c.name ≠ "" := h.name.isTextToken.ne_empty
  obtain ⟨_, hu, hv⟩ := h.value.tokens
  have htake : (tokensOf c.value).takeWhile (· != "") = tokensOf c.value :=
    h.value.takeWhile fun t ht => bne_iff_ne.mpr ht.ne_empty
  refine ⟨?_, if_pos ⟨rfl, hf⟩⟩
  rw [ofLine, if_neg (not_not_intro rfl), hf, if_neg (by decide), if_pos rfl, ofConstantLine]
  simp only [h1, h2, h3, if_neg hname]
  rw [requireClosed, hu, htake, hv]
  rfl

theorem ofLine_element {typeName : String} (hn : IsWord typeName) {catalog : Catalog}
    (hr : catalog.reserves typeName = false)
    (ht : line.tokens = (Sentence.opening ["element", typeName]).tokens)
    (file : String) (index : Nat) :
    ofLine catalog file 0 index line = element ⟨typeName, file, index, line.number⟩ ∧
      depthAfter 0 line = 1 := by
  have ho := Sentence.opens_eq (elementHeader_tokens hn).1 ht
  rw [(elementHeader_tokens hn).2] at ht
  have hf : line.first = "element" := by rw [Line.first, Line.token, ht]; rfl
  have h1 : line.token 1 = typeName := by rw [Line.token, ht]; rfl
  have h2 : line.token 2 = blockOpen := by rw [Line.token, ht]; rfl
  constructor
  · rw [ofLine, if_neg (not_not_intro rfl), if_pos hf, ofElementLine]
    simp only [h1, h2, if_neg hn.not_missing, hr]
    rfl
  · rw [depthAfter, hf, if_neg (by decide), ho]
    rfl

end Entry

namespace Outline

/-- the same declarations, and no problem more -/
structure Follows (o o' : Outline) : Prop where
  headers : o.headers = o'.headers
  constants : o.constants = o'.constants
  quiet : IsQuiet o'.events → IsQuiet o.events

theorem Follows.trans {o o' o'' : Outline} (h : o.Follows o') (h' : o'.Follows o'') :
    o.Follows o'' :=
  ⟨h.headers.trans h'.headers, h.constants.trans h'.constants, fun hq => h.quiet (h'.quiet hq)⟩

variable {catalog : Catalog} {file : String}

variable (catalog file) in
theorem follows_ofLinesFrom_cons (depth index : Nat) (line : Line) (lines : List Line) :
    (ofLinesFrom catalog file (depth + 1) index (line :: lines)).Follows
      (ofLinesFrom catalog file (depthAfter (depth + 1) line) (index + 1) lines) := by
  have hp : Entry.ofLine catalog file (depth + 1) index line = .passed :=
    if_pos (Nat.succ_ne_zero depth)
  rw [ofLinesFrom_cons, hp]
  exact ⟨rfl, rfl, fun hq => IsQuiet.cons nofun hq⟩

variable (catalog file) in
/-- the lines of these sentences are passed over in a block, and lead from `depth` blocks open in it
to `depth'` -/
def Passes (ss : List Sentence) (depth depth' : Nat) : Prop :=
  Leads Follows ss (ofLinesFrom catalog file (depth + 1)) (ofLinesFrom catalog file (depth' + 1))

theorem passes_nil (depth : Nat) : Passes catalog file [] depth depth :=
  leads_nil (fun _ => ⟨rfl, rfl, id⟩) _

theorem Passes.append {ss ss' : List Sentence} {d d' d'' : Nat} (h : Passes catalog file ss d d')
    (h' : Passes catalog file ss' d' d'') : Passes catalog file (ss ++ ss') d d'' :=
  Leads.append Follows.trans h h'

theorem Passes.cons {s : Sentence} {ss : List Sentence} {d d' d'' : Nat}
    (h : ∀ line : Line, line.tokens = s.tokens → depthAfter (d + 1) line = d' + 1)
    (h' : Passes catalog file ss d' d'') : Passes catalog file (s :: ss) d d'' := by
  refine Leads.cons (R := Follows) Follows.trans (fun line ht index rest => ?_) h'
  rw [← h line ht]
  exact follows_ofLinesFrom_cons catalog file d index line rest

theorem depthAfter_sentence {s : Sentence} (hs : s.IsSound) (depth : Nat) {line : Line}
    (ht : line.tokens = s.tokens) :
    depthAfter (depth + 1) line =
      if s.opens then depth + 2 else if s.closes then depth else depth + 1 := by
  rw [depthAfter_succ, Sentence.opens_eq hs ht, Sentence.closes_eq hs ht]

theorem passes_statements {ss : List Sentence}
    (h : ∀ s ∈ ss, s.IsSound ∧ s.opens = false ∧ s.closes = false) (depth : Nat) :
    Passes catalog file ss depth depth := by
  induction ss with
  | nil => exact passes_nil depth
  | cons s ss ih =>
    obtain ⟨⟨hs, ho, hc⟩, hss⟩ := List.forall_mem_cons.mp h
    refine Passes.cons (fun line ht => ?_) (ih hss)
    rw [depthAfter_sentence hs depth ht, ho, hc]
    rfl

theorem passes_properties {ps : List Property} (h : ∀ p ∈ ps, p.IsPrintable) (depth : Nat) :
    Passes catalog file (ps.map Property.sentence) depth depth := by
  refine passes_statements (fun s hs => ?_) depth
  obtain ⟨p, hp, rfl⟩ := List.mem_map.mp hs
  exact ⟨(h p hp).sentence.1, rfl, rfl⟩

theorem passes_variables {vs : List (String × Variable)}
    (h : ∀ v ∈ vs, IsWord v.1 ∧ IsPrintableValue v.2.value) (depth : Nat) :
    Passes catalog file (vs.map variableSentence) depth depth := by
  refine passes_statements (fun s hs => ?_) depth
  obtain ⟨v, hv, rfl⟩ := List.mem_map.mp hs
  refine ⟨(variableSentence_tokens (h v hv).1 (h v hv).2).1, ?_⟩
  unfold variableSentence
  split <;> exact ⟨rfl, rfl⟩

mutual

theorem passes_child (c : Element) (h : c.IsPrintableChild catalog) (depth : Nat) :
    Passes catalog file c.childSentences depth depth := by
  match c, h with
  | ⟨typeName, kind, name?, properties, _, children⟩, .mk hname _ hinstance hprops hchildren =>
    rw [Element.childSentences]
    have hopen : ∀ line : Line, line.tokens = Sentence.tokens (.opening _) →
        depthAfter (depth + 1) line = depth + 1 + 1 := fun line ht =>
      depthAfter_sentence (childHeader_tokens hname hinstance).1 depth ht
    refine Passes.cons hopen ?_
    refine (passes_properties hprops _).append ((passes_children children hchildren _).append ?_)
    exact Passes.cons (fun line ht => depthAfter_sentence (s := .closing) trivial (depth + 1) ht)
      (passes_nil depth)

theorem passes_children (cs : List Element) (h : ∀ c ∈ cs, c.IsPrintableChild catalog)
    (depth : Nat) : Passes catalog file (Element.sentencesOfChildren cs) depth depth := by
  match cs with
  | [] =>
    rw [Element.sentencesOfChildren]
    exact passes_nil depth
  | c :: cs =>
    obtain ⟨hc, hcs⟩ := List.forall_mem_cons.mp h
    rw [Element.sentencesOfChildren]
    exact (passes_child c hc depth).append (passes_children cs hcs depth)

end

theorem passes_body {e : Element} (h : e.IsPrintable catalog) :
    Passes catalog file e.bodySentences 0 0 :=
  (passes_variables h.vars 0).append
    ((passes_properties h.properties 0).append (passes_children e.children h.children 0))

/-! ### declarations -/

/-- from the headers of an outline these roots are built, and these are its constants; nothing is
wrong with them -/
structure Declares (catalog : Catalog) (file : String) (source : List Line) (o : Outline)
    (roots : List Element) (constants : List Constant) : Prop where
  built : o.headers.map (fun h => (h.build catalog source).result) =
    roots.map fun e => .ok ⟨e, file⟩
  quiet_build : ∀ h ∈ o.headers, IsQuiet (h.build catalog source).events
  constants : o.constants = constants
  quiet : IsQuiet o.events

variable {source : List Line} {roots : List Element}

/-- a printed root, with the outline of the lines behind it -/
theorem Declares.root (hs : ∀ line ∈ source, line.IsScanned) {e : Element}
    (he : e.IsPrintable catalog) {index : Nat} {lines rest : List Line}
    (hl : Spells lines e.sentences) (hd : source.drop index = lines ++ rest)
    (ho : (ofLinesFrom catalog file 0 (index + lines.length) rest).Declares catalog file source
      roots []) :
    (ofLinesFrom catalog file 0 index (lines ++ rest)).Declares catalog file source (e :: roots)
      [] := by
  obtain ⟨header, tail, rfl, hheader, htail⟩ := hl.of_cons
  obtain ⟨body, last, rfl, hbody, hlast⟩ := htail.of_append
  obtain ⟨closer, end', rfl, hcloser, hend⟩ := hlast.of_cons
  obtain rfl : end' = [] := List.map_eq_nil_iff.mp hend
  obtain ⟨hentry, hdepth⟩ := Entry.ofLine_element he.typeName he.not_reserved hheader file index
  have hdrop : source.drop (index + 1) = body ++ closer :: rest := by
    rw [← List.drop_drop, hd]
    simp
  -- the outline passes over the body and the closer
  have hf : (ofLinesFrom catalog file 1 (index + 1) (body ++ closer :: rest)).Follows
      (ofLinesFrom catalog file 0 (index + 1 + body.length + 1) rest) := by
    have hclose : depthAfter 1 closer = 0 := depthAfter_sentence (s := .closing) trivial 0 hcloser
    have hlastStep := follows_ofLinesFrom_cons catalog file 0 (index + 1 + body.length)
      closer rest
    rw [hclose] at hlastStep
    exact (passes_body he body hbody (index + 1) (closer :: rest)).trans hlastStep
  have hi : index + (header :: (body ++ [closer])).length = index + 1 + body.length + 1 := by
    rw [List.length_cons, List.length_append, List.length_singleton]
    omega
  have hsplit : header :: (body ++ [closer]) ++ rest = header :: (body ++ closer :: rest) := by
    simp
  rw [hi] at ho
  rw [hsplit, ofLinesFrom_cons, hentry, hdepth]
  obtain ⟨hresult, hreports⟩ := Header.build_printed he hs (h := ⟨e.typeName, file, index,
    header.number⟩) rfl hbody hcloser hdrop
  have hbuilt : IsQuiet (Header.build catalog source ⟨e.typeName, file, index,
      header.number⟩).events := (isQuiet_iff 0).mpr (hreports 0)
  refine ⟨?_, ?_, hf.constants.trans ho.constants, ?_⟩
  · show _ :: (ofLinesFrom catalog file 1 (index + 1) (body ++ closer :: rest)).headers.map _ = _
    rw [hf.headers, ho.built]
    exact congrArg (· :: _) hresult
  · show ∀ h ∈ _ :: (ofLinesFrom catalog file 1 (index + 1) (body ++ closer :: rest)).headers, _
    rw [hf.headers]
    exact List.forall_mem_cons.mpr ⟨hbuilt, ho.quiet_build⟩
  · exact IsQuiet.cons nofun (IsQuiet.cons nofun (hf.quiet ho.quiet))

theorem declares_roots (hs : ∀ line ∈ source, line.IsScanned)
    (hr : ∀ e ∈ roots, e.IsPrintable catalog) {index : Nat} {lines : List Line}
    (hl : Spells lines (roots.flatMap Element.sentences)) (hd : source.drop index = lines) :
    (ofLinesFrom catalog file 0 index lines).Declares catalog file source roots [] := by
  induction roots generalizing index lines with
  | nil =>
    obtain rfl : lines = [] := List.map_eq_nil_iff.mp hl
    exact ⟨rfl, fun h hm => absurd hm List.not_mem_nil, rfl, isQuiet_nil⟩
  | cons e roots ih =>
    obtain ⟨he, hroots⟩ := List.forall_mem_cons.mp hr
    obtain ⟨ls, rest, rfl, hls, hrest⟩ := hl.of_append
    refine Declares.root hs he hls hd (ih hroots hrest ?_)
    rw [← List.drop_drop, hd, List.drop_left]

theorem declares_constants {constants : List Constant} (hc : ∀ c ∈ constants, c.IsPrintable)
    {index : Nat} {lines rest : List Line} (hl : Spells lines (constants.map Constant.sentence))
    (ho : (ofLinesFrom catalog file 0 (index + lines.length) rest).Declares catalog file source
      roots []) :
    (ofLinesFrom catalog file 0 index (lines ++ rest)).Declares catalog file source roots
      constants := by
  induction constants generalizing index lines with
  | nil =>
    obtain rfl : lines = [] := List.map_eq_nil_iff.mp hl
    exact ho
  | cons c constants ih =>
    obtain ⟨hcon, hcs⟩ := List.forall_mem_cons.mp hc
    obtain ⟨line, ls, rfl, ht, hls⟩ := hl.of_cons
    obtain ⟨hentry, hdepth⟩ := Entry.ofLine_constant hcon ht catalog file index
    have hi : index + (line :: ls).length = index + 1 + ls.length := by
      rw [List.length_cons]
      omega
    rw [hi] at ho
    obtain ⟨hbuilt, hqb, hconstants, hquiet⟩ := ih hcs hls ho
    rw [List.cons_append, ofLinesFrom_cons, hentry, hdepth]
    exact ⟨hbuilt, hqb, congrArg (c :: ·) hconstants, IsQuiet.cons nofun hquiet⟩

/-- the outline of printed declarations -/
theorem declares_printed {constants : List Constant} (hr : ∀ e ∈ roots, e.IsPrintable catalog)
    (hc : ∀ c ∈ constants, c.IsPrintable) :
    (ofLines catalog file (Line.ofSource (printed roots constants))).Declares catalog file
      (Line.ofSource (printed roots constants)) roots constants := by
  have hs : ∀ line ∈ Line.ofSource (printed roots constants), line.IsScanned := fun _ hm =>
    Line.isScanned_of_mem hm
  have hl : Spells (Line.ofSource (printed roots constants)) _ := ofSource_printed hr hc
  obtain ⟨ls, ls', he, hls, hls'⟩ := hl.of_append
  rw [ofLines]
  have hroots : (ofLinesFrom catalog file 0 (0 + ls.length) ls').Declares catalog file
      (Line.ofSource (printed roots constants)) roots [] := by
    refine declares_roots hs hr hls' ?_
    rw [he, Nat.zero_add, List.drop_left]
  have h := declares_constants hc hls hroots
  rwa [← he] at h

end Outline

/-! ## batches -/

namespace Batch

theorem buildAll_eq {catalog : Catalog} {d : Document} {headers : List Header}
    {elements : List DeclaredElement}
    (h : headers.map (fun h => (h.build catalog d.lines).result) = elements.map .ok)
    (hq : ∀ h ∈ headers, IsQuiet (h.build catalog d.lines).events) :
    (buildAll catalog d headers).1 = elements ∧ IsQuiet (buildAll catalog d headers).2 := by
  have hbuilt : (headers.map (build catalog d)).filterMap Prod.fst = elements ∧
      IsQuiet ((headers.map (build catalog d)).flatMap Prod.snd) := by
    induction headers generalizing elements with
    | nil =>
      obtain rfl : elements = [] := List.map_eq_nil_iff.mp h.symm
      exact ⟨rfl, isQuiet_nil⟩
    | cons g gs ih =>
      obtain ⟨e, es, rfl, he, hes⟩ := List.map_eq_cons_iff.mp h.symm
      obtain ⟨hg, hgs⟩ := List.forall_mem_cons.mp hq
      obtain ⟨helements, hquiet⟩ := ih hes.symm hgs
      have hok : (g.build catalog d.lines).result = .ok e := he.symm
      rw [List.map_cons, build_eq, hok]
      exact ⟨congrArg (e :: ·) helements, isQuiet_append.mpr ⟨hg, hquiet⟩⟩
  refine ⟨hbuilt.1, ?_⟩
  show IsQuiet (if headers.isEmpty then [] else _)
  split
  · exact isQuiet_nil
  · exact IsQuiet.cons nofun hbuilt.2

theorem read_singleton (catalog : Catalog) (file content : String) :
    let d := document ⟨file, content⟩
    let o := Outline.ofLines catalog file d.lines
    let built := buildAll catalog d o.headers
    (read catalog [⟨file, content⟩]).declarations = ⟨built.1, o.constants⟩ ∧
      (read catalog [⟨file, content⟩]).events =
        [.note (.scanned d.lines.length), .note (.outlining file d.lines.length),
          .source file d.lines] ++ (o.events ++ built.2) := by
  have hd : documents [⟨file, content⟩] = [document ⟨file, content⟩] := by
    simp [documents, firsts]
  simp [read, hd, outline, scanNotes, document]

/-- what a source declares is read from it, and nothing is reported -/
theorem read_of_declares {catalog : Catalog} {file content : String} {roots : List Element}
    {constants : List Constant}
    (h : (Outline.ofLines catalog file (Line.ofSource content)).Declares catalog file
      (Line.ofSource content) roots constants) :
    let r := read catalog [⟨file, content⟩]
    r.declarations = ⟨roots.map fun e => ⟨e, file⟩, constants⟩ ∧
      Diagnostics.ofEvents r.events = [] := by
  obtain ⟨hdecl, hevents⟩ := read_singleton catalog file content
  have hroots : (roots.map fun e => DeclaredElement.mk e file).map .ok =
      roots.map fun e => (.ok ⟨e, file⟩ : Except Unclosed DeclaredElement) := List.map_map
  obtain ⟨helements, hquiet⟩ := buildAll_eq (d := document ⟨file, content⟩)
    (h.built.trans hroots.symm) h.quiet_build
  refine ⟨?_, Diagnostics.ofEvents_eq_nil.mpr ?_⟩
  · rw [hdecl]
    exact congr (congrArg Declarations.mk helements) h.constants
  · rw [hevents]
    have hrest := isQuiet_append.mpr ⟨h.quiet, hquiet⟩
    exact IsQuiet.cons nofun (IsQuiet.cons nofun (IsQuiet.cons nofun hrest))

/-- declarations that are written as a source are read again, and nothing is reported -/
theorem read_printed (catalog : Catalog) (file : String) (roots : List Element)
    (constants : List Constant) (hr : ∀ e ∈ roots, e.IsPrintable catalog)
    (hc : ∀ c ∈ constants, c.IsPrintable) :
    let r := read catalog [⟨file, printed roots constants⟩]
    r.declarations = ⟨roots.map fun e => ⟨e, file⟩, constants⟩ ∧
      Diagnostics.ofEvents r.events = [] :=
  read_of_declares (Outline.declares_printed hr hc)

/-- a root with a variable, a property and a child in a child -/
theorem read_printed_menu :
    let root : Element := ⟨"Menu", .userDefined, none, [⟨"size", "( 2 * w )"⟩],
      [("w", ⟨"3", .unresolved⟩), ("h", ⟨"", .unresolved⟩)],
      [⟨"UIBox", .toolkit, some "top", [⟨"text", "\"a;b\""⟩], [],
        [⟨"Icon", .userDefined, none, [], [], []⟩]⟩]⟩
    let r := read .standard [⟨"menu.kml", printed [root] [⟨"W", "3"⟩]⟩]
    r.declarations = ⟨[⟨root, "menu.kml"⟩], [⟨"W", "3"⟩]⟩ ∧ Diagnostics.ofEvents r.events = [] := by
  have hempty : IsPrintableValue "" :=
    ⟨[], fun t ht => absurd ht List.not_mem_nil, by rw [unclosed?], rfl⟩
  have hthree : IsPrintableValue "3" :=
    ⟨["3"], List.forall_mem_singleton.mpr (.word (by decide)),
      by simp [unclosed?, Bracket.ofOpener?], rfl⟩
  have hsize : IsPrintableValue "( 2 * w )" := by
    refine ⟨["(", "2", "*", "w", ")"], fun t ht => ?_, ?_, by decide⟩
    · simp only [List.mem_cons, List.not_mem_nil, or_false] at ht
      rcases ht with rfl | rfl | rfl | rfl | rfl
      · exact .operator ⟨'(', by decide, rfl⟩
      · exact .word (by decide)
      · exact .operator ⟨'*', by decide, rfl⟩
      · exact .word (by decide)
      · exact .operator ⟨')', by decide, rfl⟩
    · simp [unclosed?, Bracket.ofOpener?, Bracket.enclosed, Bracket.depthAfter, Bracket.opens,
        Bracket.closes]
  have htext : IsPrintableValue "\"a;b\"" :=
    ⟨["\"a;b\""], List.forall_mem_singleton.mpr (.quotation ⟨['a', ';', 'b'], by decide, by decide⟩),
      by simp [unclosed?, Bracket.ofOpener?], rfl⟩
  have hicon : Element.IsPrintableChild .standard ⟨"Icon", .userDefined, none, [], [], []⟩ :=
    .mk (by decide) (by decide) (fun n hn => absurd hn (by simp))
      (fun p hp => absurd hp List.not_mem_nil) (fun c hc => absurd hc List.not_mem_nil)
  have hbox : Element.IsPrintableChild .standard ⟨"UIBox", .toolkit, some "top",
      [⟨"text", "\"a;b\""⟩], [], [⟨"Icon", .userDefined, none, [], [], []⟩]⟩ :=
    .mk (by decide) (by decide) (fun n hn => by rw [← Option.some.inj hn]; decide)
      (List.forall_mem_singleton.mpr ⟨by decide, by decide, by decide, htext⟩)
      (List.forall_mem_singleton.mpr hicon)
  refine read_printed .standard "menu.kml" _ _ (List.forall_mem_singleton.mpr ?_)
    (List.forall_mem_singleton.mpr ⟨by decide, hthree⟩)
  exact {
    typeName := by decide
    not_reserved := by decide
    kind := rfl
    name? := rfl
    properties := List.forall_mem_singleton.mpr ⟨by decide, by decide, by decide, hsize⟩
    vars := List.forall_mem_cons.mpr ⟨⟨by decide, hthree⟩,
      List.forall_mem_singleton.mpr ⟨by decide, hempty⟩⟩
    nodup := by decide
    children := List.forall_mem_singleton.mpr hbox }

end Batch
end Markup
