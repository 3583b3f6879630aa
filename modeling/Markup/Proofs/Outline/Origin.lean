import Markup.Proofs.Block.Origin
import Markup.Proofs.Outline.Places
import Mathlib.Data.List.Forall2
import Mathlib.Data.List.Pairwise

/-!
# Where the declarations of a source come from

Each element that a source declares stems from the lines from its header to the end of its block, and
each constant from a line of its own (`Origins.Fit`).  No line is used twice: the blocks are
disjoint, and a constant stands outside of them.  If nothing is reported of a source, each of its
lines is a brace, or a declaration or one of its parts stems from it, or it repeats a variable, or it
is aside (`exists_origins`).
-/

namespace Markup

/-! ## elements -/

/-- the places of the lines from which an element is read: its declaration, and its parts in the
order of the lines -/
structure Origin where
  header : Nat
  parts : List (Nat × Part)

namespace Origin

/-- the lines from which the element is read -/
def places (o : Origin) : List Nat := o.header :: o.parts.map Prod.fst

/-- the element is declared at its header, and each of its parts is stated on a line of its own in
its block -/
structure Fits (catalog : Catalog) (lines : List Line) (o : Origin) (e : Element) : Prop where
  header : ∃ line, lines[o.header]? = some line ∧ line.StatesElement e
  parts : e.parts.Perm (o.parts.map Prod.snd)
  states : ∀ x ∈ o.parts, ∃ line, lines[x.1]? = some line ∧ line.States catalog x.2
  ascending : o.places.Pairwise (· < ·)
  within : ∀ i ∈ o.places, i ≤ blockEnd lines o.header

/-- line `i` declares a variable, and the element has one of the same name from a line before -/
def Repeats (catalog : Catalog) (lines : List Line) (o : Origin) (i : Nat) : Prop :=
  ∃ line name v v', lines[i]? = some line ∧ line.States catalog (.var name v) ∧
    ∃ j < i, (j, .var name v') ∈ o.parts

/-- no line of the block is lost -/
def IsComplete (catalog : Catalog) (lines : List Line) (o : Origin) : Prop :=
  ∀ i line, o.header < i → i ≤ blockEnd lines o.header → lines[i]? = some line →
    line.isLoneOpen = false → line.isLoneClose = false →
    i ∈ o.places ∨ o.Repeats catalog lines i ∨ IsAside lines i

end Origin

variable {catalog : Catalog} {file : String} {lines : List Line}

theorem Origin.header_le_of_mem_places {o : Origin} (h : o.places.Pairwise (· < ·)) {i : Nat}
    (hi : i ∈ o.places) : o.header ≤ i := by
  rcases List.mem_cons.mp hi with rfl | hi
  · exact Nat.le_refl _
  · exact Nat.le_of_lt ((List.pairwise_cons.mp h).1 i hi)

theorem Origin.isComplete_of_accounts {o : Origin} {e : Element} (he : e.parts = [])
    (h : Accounts catalog lines (o.header + 1) (blockEnd lines o.header + 1) e o.parts) :
    o.IsComplete catalog lines := by
  intro i line hlt hle hline hopen hclose
  rcases h i line hlt (Nat.lt_succ_of_le hle) hline hopen hclose with
    hmem | ⟨l, name, v, v', hl, hv, hpart | hrep⟩ | haside
  · exact Or.inl (List.mem_cons_of_mem _ hmem)
  · rw [he] at hpart
    exact absurd hpart List.not_mem_nil
  · exact Or.inr (Or.inl ⟨l, name, v, v', hl, hv, hrep⟩)
  · exact Or.inr (Or.inr haside)

/-- what the lines behind a header add to an element without parts -/
theorem Origin.fits_of_adds {o : Origin} {typeName : String} {e : Element} {line : Line}
    (hline : lines[o.header]? = some line) (hst : line.statement = ["element", typeName])
    (hopens : line.opens = true)
    (h : Adds catalog lines (o.header + 1) (blockEnd lines o.header + 1)
      (.bare typeName .userDefined) e o.parts) (hle : o.header ≤ blockEnd lines o.header) :
    o.Fits catalog lines e where
  header := by
    refine ⟨line, hline, ?_, hopens, h.kind, h.name?⟩
    rw [hst, h.typeName]
    rfl
  parts := by
    have hparts := h.parts
    rw [Element.parts_bare, List.nil_append] at hparts
    exact hparts
  states := h.states
  ascending := by
    refine List.pairwise_cons.mpr ⟨fun i hi => ?_, h.ascending⟩
    obtain ⟨x, hx, rfl⟩ := List.mem_map.mp hi
    have hw := (h.within x hx).1
    omega
  within := by
    intro i hi
    rcases List.mem_cons.mp hi with rfl | hi
    · exact hle
    · obtain ⟨x, hx, rfl⟩ := List.mem_map.mp hi
      have hw := (h.within x hx).2
      omega

theorem Header.exists_origin (hl : ∀ line ∈ lines, line.IsCut) {h : Header}
    (hm : h ∈ (Outline.ofLines catalog file lines).headers) {e : DeclaredElement}
    (hr : (h.build catalog lines).result = .ok e) :
    ∃ o : Origin, o.header = h.start ∧ o.Fits catalog lines e.root ∧
      (IsQuiet (h.build catalog lines).events → o.IsComplete catalog lines) := by
  obtain ⟨hlt, _, h1⟩ := Outline.depthBefore_of_mem_headers catalog file hm
  have hend : blockEnd lines h.start = h.start + blockLength 0 (lines.drop (h.start + 1)) :=
    blockEnd_eq (Line.forall_isScanned hl) hlt h1
  have hstop : h.start + 1 + blockLength 0 (lines.drop (h.start + 1)) =
      blockEnd lines h.start + 1 := by omega
  have hdepth : depthBefore lines (h.start + 1) ≠ 0 := by
    rw [h1]
    exact Nat.one_ne_zero
  obtain ⟨root, hroot, he⟩ := Traced.result_bind_eq_ok.mp hr
  obtain rfl : DeclaredElement.mk root h.file = e := Except.ok.inj he
  obtain ⟨new, hadds, hacc⟩ := stems_readBlock hl (h.start + 1) true _ (fun _ => hdepth) root hroot
  obtain ⟨line, hline, hentry⟩ := Outline.exists_line_of_mem_headers hm
  obtain ⟨hst, hopens⟩ := Line.statement_element catalog (hl _ (List.mem_of_getElem? hline)) hentry
  rw [hstop] at hadds hacc
  have hle : h.start ≤ blockEnd lines h.start := by omega
  refine ⟨⟨h.start, new⟩, rfl, Origin.fits_of_adds hline hst hopens hadds hle, fun hq => ?_⟩
  refine Origin.isComplete_of_accounts (Element.parts_bare h.name .userDefined) (hacc ?_)
  rw [← Traced.events_bind_pure _ fun root => DeclaredElement.mk root h.file]
  exact hq.tail

/-! ## sources -/

/-- the places of the lines from which the declarations of a source are read -/
structure Origins where
  elements : List Origin
  constants : List (Nat × Constant)

namespace Origins

/-- the lines from which something is read -/
def places (o : Origins) : List Nat :=
  o.elements.flatMap Origin.places ++ o.constants.map Prod.fst

/-- each element and each constant is read from lines of its own, none of which is used twice -/
structure Fit (catalog : Catalog) (lines : List Line) (o : Origins) (d : Declarations) : Prop where
  elements : List.Forall₂ (fun o e => o.Fits catalog lines e.root) o.elements d.elements
  constants : o.constants.map Prod.snd = d.constants
  states : ∀ x ∈ o.constants, ∃ line, lines[x.1]? = some line ∧ line.StatesConstant x.2
  nodup : o.places.Nodup

/-- line `i` is one of these lines, or it repeats a variable of the element in whose block it lies,
or it is aside -/
def Accounts (catalog : Catalog) (lines : List Line) (o : Origins) (i : Nat) : Prop :=
  i ∈ o.places ∨
    (∃ p ∈ o.elements, p.header < i ∧ i ≤ blockEnd lines p.header ∧ p.Repeats catalog lines i) ∨
    IsAside lines i

end Origins

def builtFrom (catalog : Catalog) (lines : List Line) (hs : List Header) : List DeclaredElement :=
  hs.filterMap fun h => (h.build catalog lines).result.toOption

theorem exists_origin_list (catalog : Catalog) (hl : ∀ line ∈ lines, line.IsCut) {hs : List Header}
    (hm : ∀ h ∈ hs, h ∈ (Outline.ofLines catalog file lines).headers) :
    ∃ os : List Origin,
      List.Forall₂ (fun o e => o.Fits catalog lines e.root) os (builtFrom catalog lines hs) ∧
        os.map Origin.header =
          (hs.filter fun h => (h.build catalog lines).result.toOption.isSome).map Header.start ∧
        ((∀ h ∈ hs, IsQuiet (h.build catalog lines).events) →
          ∀ o ∈ os, o.IsComplete catalog lines) := by
  induction hs with
  | nil => exact ⟨[], .nil, rfl, fun _ o ho => absurd ho List.not_mem_nil⟩
  | cons h hs ih =>
    obtain ⟨hh, hhs⟩ := List.forall_mem_cons.mp hm
    obtain ⟨os, hfit, hheaders, hcomplete⟩ := ih hhs
    cases hr : (h.build catalog lines).result with
    | error b =>
      have hnone : (h.build catalog lines).result.toOption = none := by rw [hr]; rfl
      have hbuilt : builtFrom catalog lines (h :: hs) = builtFrom catalog lines hs :=
        List.filterMap_cons_none hnone
      refine ⟨os, ?_, ?_, fun hq => hcomplete (List.forall_mem_cons.mp hq).2⟩
      · rw [hbuilt]
        exact hfit
      · rw [List.filter_cons_of_neg (by rw [hnone]; exact Bool.false_ne_true)]
        exact hheaders
    | ok e =>
      have hsome : (h.build catalog lines).result.toOption = some e := by rw [hr]; rfl
      obtain ⟨o, ho, hfits, hone⟩ := h.exists_origin hl hh hr
      have hbuilt : builtFrom catalog lines (h :: hs) = e :: builtFrom catalog lines hs :=
        List.filterMap_cons_some hsome
      refine ⟨o :: os, ?_, ?_, fun hq => ?_⟩
      · rw [hbuilt]
        exact .cons hfits hfit
      · rw [List.filter_cons_of_pos (by rw [hsome]; rfl), List.map_cons, List.map_cons, ho, hheaders]
      · obtain ⟨hqh, hqs⟩ := List.forall_mem_cons.mp hq
        exact List.forall_mem_cons.mpr ⟨hone hqh, hcomplete hqs⟩

/-- blocks of different headers have no line in common, and a constant lies in no block -/
theorem nodup_places (hl : ∀ line ∈ lines, line.IsCut) {os : List Origin}
    (hs : os.map Origin.header |>.Sublist
      ((Outline.ofLines catalog file lines).headers.map Header.start))
    (hasc : ∀ o ∈ os, o.places.Pairwise (· < ·))
    (hin : ∀ o ∈ os, ∀ i ∈ o.places, i ≤ blockEnd lines o.header) :
    (Origins.mk os (Outline.constantPlaces catalog file lines)).places.Nodup := by
  have hscanned := Line.forall_isScanned hl
  have hheader : ∀ o ∈ os, ∃ h ∈ (Outline.ofLines catalog file lines).headers, h.start = o.header :=
    fun o ho => List.mem_map.mp (hs.subset (List.mem_map_of_mem ho))
  have hline : ∀ o ∈ os, o.header < lines.length ∧ depthBefore lines o.header = 0 ∧
      depthBefore lines (o.header + 1) = 1 := by
    intro o ho
    obtain ⟨h, hm, hstart⟩ := hheader o ho
    rw [← hstart]
    exact Outline.depthBefore_of_mem_headers catalog file hm
  have hle : ∀ o ∈ os, ∀ i ∈ o.places, o.header ≤ i := fun o ho i hi =>
    Origin.header_le_of_mem_places (hasc o ho) hi
  have hpair : os.Pairwise fun o o' => o.header < o'.header := by
    have hstarts := List.pairwise_map.mpr (Outline.pairwise_start catalog file 0 0 lines)
    exact List.pairwise_map.mp (hstarts.sublist hs)
  -- a block ends before the header of the next one
  refine List.nodup_append.mpr ⟨?_, ?_, ?_⟩
  · refine List.pairwise_flatMap.mpr ⟨fun o ho => (hasc o ho).imp Nat.ne_of_lt, ?_⟩
    refine hpair.imp_of_mem fun {o o'} ho ho' hlt i hi j hj => ?_
    obtain ⟨_, _, h1⟩ := hline o ho
    obtain ⟨hlen', h0', _⟩ := hline o' ho'
    have hend := blockEnd_lt h1 hlt hlen' h0'
    have hi := hin o ho i hi
    have hj := hle o' ho' j hj
    omega
  · exact (Outline.ascending_constantPlaces catalog file lines).imp Nat.ne_of_lt
  · intro i hi j hj hij
    obtain ⟨o, ho, hi⟩ := List.mem_flatMap.mp hi
    obtain ⟨x, hx, rfl⟩ := List.mem_map.mp hj
    subst hij
    have hconst := Outline.mem_constantPlaces.mp hx
    obtain ⟨hlen, h0, h1⟩ := hline o ho
    obtain ⟨h, hm, hstart⟩ := hheader o ho
    by_cases he : x.1 = o.header
    · rw [he, ← hstart, Outline.mem_headers.mp hm] at hconst
      exact absurd hconst (by simp)
    · refine depthBefore_ne_zero hscanned hlen h0 h1 ?_ (hin o ho _ hi)
        (Outline.depthBefore_of_constant hconst)
      have hge := hle o ho _ hi
      omega

/-- a line of a source without problems is accounted for if its elements are complete -/
theorem accounts_of_quiet (hl : ∀ line ∈ lines, line.IsCut) {os : List Origin}
    (hq : IsQuiet (Outline.ofLines catalog file lines).events)
    (hos : ∀ h ∈ (Outline.ofLines catalog file lines).headers, ∃ o ∈ os, o.header = h.start)
    (hcomplete : ∀ o ∈ os, o.IsComplete catalog lines) {i : Nat} {line : Line}
    (hline : lines[i]? = some line) (hopen : line.isLoneOpen = false)
    (hclose : line.isLoneClose = false) :
    (Origins.mk os (Outline.constantPlaces catalog file lines)).Accounts catalog lines i := by
  by_cases h0 : depthBefore lines i = 0
  · rcases Outline.entry_cases hq hline h0 with ⟨h, hm, rfl⟩ | ⟨_, c, hmem⟩ | haside
    · obtain ⟨o, ho, he⟩ := hos h hm
      refine Or.inl (List.mem_append_left _ (List.mem_flatMap.mpr ⟨o, ho, ?_⟩))
      exact he ▸ List.mem_cons_self
    · exact Or.inl (List.mem_append_right _ (List.mem_map_of_mem hmem))
    · exact Or.inr (Or.inr (Or.inl ⟨h0, haside⟩))
  · -- the outermost block around the line is that of an element, or all in it is aside
    obtain ⟨j, hj0, henc⟩ := exists_encloses h0
    obtain ⟨hi, _⟩ := List.getElem?_eq_some_iff.mp hline
    have hjlen : j < lines.length := Nat.lt_trans henc.1 hi
    have hj : lines[j]? = some lines[j] := List.getElem?_eq_getElem hjlen
    rcases Outline.entry_cases hq hj hj0 with ⟨h, hm, rfl⟩ | ⟨hf, _⟩ | haside
    · obtain ⟨o, ho, he⟩ := hos h hm
      have hle := henc.le_blockEnd (Line.forall_isScanned hl) hj hj0 hi
      have hlt := henc.1
      rw [← he] at hle hlt
      rcases hcomplete o ho i line hlt hle hline hopen hclose with hmem | hrep | haside
      · exact Or.inl (List.mem_append_left _ (List.mem_flatMap.mpr ⟨o, ho, hmem⟩))
      · exact Or.inr (Or.inl ⟨o, ho, hlt, hle, hrep⟩)
      · exact Or.inr (Or.inr haside)
    · have h1 := henc.depthBefore_succ_eq hj
      rw [depthBefore_succ hj, hj0, depthAfter, if_pos ⟨rfl, hf⟩] at h1
      exact absurd h1 (by simp)
    · exact Or.inr (Or.inr (Or.inr ⟨j, henc, haside⟩))

/-- what a source declares comes from its lines, and if nothing is reported all its lines are accounted
for -/
theorem exists_origins (catalog : Catalog) (file : String) (hl : ∀ line ∈ lines, line.IsCut) :
    let outline := Outline.ofLines catalog file lines
    ∃ o : Origins,
      o.Fit catalog lines ⟨builtFrom catalog lines outline.headers, outline.constants⟩ ∧
        (IsQuiet outline.events → (∀ h ∈ outline.headers,
            IsQuiet (h.build catalog lines).events ∧ ∃ e, (h.build catalog lines).result = .ok e) →
          ∀ i line, lines[i]? = some line → line.isLoneOpen = false → line.isLoneClose = false →
            o.Accounts catalog lines i) := by
  intro outline
  obtain ⟨os, hfit, hheaders, hcomplete⟩ :=
    exists_origin_list catalog hl fun h (hm : h ∈ outline.headers) => hm
  have hinside : (∀ o ∈ os, o.places.Pairwise (· < ·) ∧
      ∀ i ∈ o.places, i ≤ blockEnd lines o.header) ∧ List.Forall₂ _ os _ :=
    (List.forall₂_and_left os _).mp (hfit.imp fun {o e} h => ⟨⟨h.ascending, h.within⟩, h⟩)
  have hsublist : (os.map Origin.header).Sublist (outline.headers.map Header.start) := by
    rw [hheaders]
    exact List.filter_sublist.map _
  refine ⟨⟨os, Outline.constantPlaces catalog file lines⟩, ⟨hfit, ?_, ?_, ?_⟩, ?_⟩
  · exact Outline.map_constantPlaces catalog file lines
  · intro x hx
    have hconst := Outline.mem_constantPlaces.mp hx
    obtain ⟨line, hline⟩ := Outline.line_of_entryAt (by rw [hconst]; simp)
    rw [Outline.entryAt_eq catalog file lines hline] at hconst
    exact ⟨line, hline, Line.states_constant catalog (hl _ (List.mem_of_getElem? hline)) hconst⟩
  · exact nodup_places hl hsublist (fun o ho => (hinside.1 o ho).1) fun o ho => (hinside.1 o ho).2
  · intro hq hbuilt i line hline hopen hclose
    have hos : ∀ h ∈ outline.headers, ∃ o ∈ os, o.header = h.start := by
      intro h hm
      obtain ⟨_, e, he⟩ := hbuilt h hm
      have hmem : h.start ∈ os.map Origin.header := by
        rw [hheaders]
        exact List.mem_map_of_mem (List.mem_filter.mpr ⟨hm, by rw [he]; rfl⟩)
      exact List.mem_map.mp hmem
    exact accounts_of_quiet hl hq hos (hcomplete fun h hm => (hbuilt h hm).1) hline hopen hclose

end Markup
