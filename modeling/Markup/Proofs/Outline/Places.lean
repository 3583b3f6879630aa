import Markup.Proofs.Outline.Aside

/-!
# The entries of a source by their places

An outline goes over the lines of a source with the number of open blocks.  Here each line has its
entry at once, since that number is known (`depthBefore`); what an outline declares is what these
entries declare, in the order of the lines.

* `Outline.entryAt`          the entry of the line at some place;
* `Outline.mem_headers`        the headers that an outline finds;
* `Outline.constantPlaces`      the constants that it finds, with their places.
-/

namespace Markup

namespace Entry

def header? : Entry → Option Header
  | element header => some header
  | _ => none

def constant? : Entry → Option Constant
  | constant c => some c
  | _ => none

end Entry

namespace Outline

section
variable (catalog : Catalog) (file : String) (lines : List Line)

/-- what the line at place `i` is at the top level of its source -/
def entryAt (i : Nat) : Entry :=
  match lines[i]? with
  | some line => Entry.ofLine catalog file (depthBefore lines i) i line
  | none => .passed

theorem entryAt_eq {i : Nat} {line : Line} (h : lines[i]? = some line) :
    entryAt catalog file lines i = Entry.ofLine catalog file (depthBefore lines i) i line := by
  rw [entryAt, h]

/-- an outline goes over the entries in the order of the lines -/
theorem ofLinesFrom_entries (k : Nat) :
    let o := ofLinesFrom catalog file (depthBefore lines k) k (lines.drop k)
    o.headers = (List.range' k (lines.length - k)).filterMap
        (fun i => (entryAt catalog file lines i).header?) ∧
      o.constants = (List.range' k (lines.length - k)).filterMap
        (fun i => (entryAt catalog file lines i).constant?) ∧
      ∀ i, k ≤ i → ∀ x ∈ (entryAt catalog file lines i).events, x ∈ o.events := by
  intro o
  by_cases hk : k < lines.length
  · have hline : lines[k]? = some lines[k] := List.getElem?_eq_getElem hk
    have hlen : lines.length - k = lines.length - (k + 1) + 1 := by omega
    obtain ⟨hheaders, hconstants, hevents⟩ := ofLinesFrom_entries (k + 1)
    rw [depthBefore_succ hline] at hheaders hconstants hevents
    have ho : o = (ofLinesFrom catalog file (depthAfter (depthBefore lines k) lines[k]) (k + 1)
        (lines.drop (k + 1))).add k (entryAt catalog file lines k) := by
      show ofLinesFrom _ _ _ _ (lines.drop k) = _
      rw [List.drop_eq_getElem_cons hk, ofLinesFrom_cons, entryAt_eq catalog file lines hline]
    rw [ho, hlen, List.range'_succ]
    refine ⟨?_, ?_, fun i hi x hx => ?_⟩
    · rw [List.filterMap_cons, ← hheaders]
      cases entryAt catalog file lines k <;> rfl
    · rw [List.filterMap_cons, ← hconstants]
      cases entryAt catalog file lines k <;> rfl
    · refine List.mem_cons_of_mem _ (List.mem_append.mpr ?_)
      by_cases he : i = k
      · exact Or.inl (he ▸ hx)
      · exact Or.inr (hevents i (by omega) x hx)
  · have hz : lines.length - k = 0 := by omega
    have ho : o = atEnd (depthBefore lines k) k := by
      show ofLinesFrom _ _ _ _ (lines.drop k) = _
      rw [List.drop_eq_nil_of_le (Nat.le_of_not_lt hk), ofLinesFrom_nil]
    have hempty : o.headers = [] ∧ o.constants = [] := by
      rw [ho, atEnd]
      split <;> exact ⟨rfl, rfl⟩
    rw [hz]
    refine ⟨hempty.1, hempty.2, fun i hi x hx => ?_⟩
    rw [entryAt, List.getElem?_eq_none (by omega)] at hx
    exact absurd hx List.not_mem_nil
termination_by lines.length - k

/-- the constants of a source, each with the place of its line -/
def constantPlaces : List (Nat × Constant) :=
  (List.range lines.length).filterMap fun i =>
    (entryAt catalog file lines i).constant?.map fun c => (i, c)

theorem map_constantPlaces :
    (constantPlaces catalog file lines).map Prod.snd = (ofLines catalog file lines).constants := by
  obtain ⟨_, hconstants, _⟩ := ofLinesFrom_entries catalog file lines 0
  rw [constantPlaces, List.map_filterMap, List.range_eq_range']
  have hentry : ∀ i, ((entryAt catalog file lines i).constant?.map fun c => (i, c)).map Prod.snd =
      (entryAt catalog file lines i).constant? := by
    intro i
    cases entryAt catalog file lines i <;> rfl
  exact (congrArg (List.filterMap · _) (funext hentry)).trans hconstants.symm

theorem ascending_constantPlaces :
    ((constantPlaces catalog file lines).map Prod.fst).Pairwise (· < ·) := by
  rw [constantPlaces, List.pairwise_map, List.pairwise_filterMap]
  refine List.pairwise_lt_range.imp fun {i j} hlt x hx y hy => ?_
  obtain ⟨c, _, rfl⟩ := Option.map_eq_some_iff.mp hx
  obtain ⟨d, _, rfl⟩ := Option.map_eq_some_iff.mp hy
  exact hlt

variable {catalog file lines}

theorem line_of_entryAt {i : Nat} (h : entryAt catalog file lines i ≠ .passed) :
    ∃ line, lines[i]? = some line := by
  cases hl : lines[i]? with
  | some line => exact ⟨line, rfl⟩
  | none => exact absurd (by rw [entryAt, hl]) h

theorem mem_constantPlaces {x : Nat × Constant} : x ∈ constantPlaces catalog file lines ↔
    entryAt catalog file lines x.1 = .constant x.2 := by
  obtain ⟨i, c⟩ := x
  rw [constantPlaces, List.mem_filterMap]
  constructor
  · rintro ⟨j, _, hj⟩
    obtain ⟨d, hd, he⟩ := Option.map_eq_some_iff.mp hj
    obtain ⟨rfl, rfl⟩ := Prod.mk.inj he
    cases hentry : entryAt catalog file lines j with
    | constant b =>
      rw [hentry] at hd
      obtain rfl : b = d := Option.some.inj hd
      rfl
    | element _ | rejected _ | passed =>
      rw [hentry] at hd
      exact absurd hd (by simp [Entry.constant?])
  · intro he
    obtain ⟨line, hline⟩ := line_of_entryAt (by rw [he]; simp)
    obtain ⟨hlt, _⟩ := List.getElem?_eq_some_iff.mp hline
    exact ⟨i, List.mem_range.mpr hlt, by rw [he]; rfl⟩

theorem mem_headers {h : Header} : h ∈ (ofLines catalog file lines).headers ↔
    entryAt catalog file lines h.start = .element h := by
  obtain ⟨hheaders, _, _⟩ := ofLinesFrom_entries catalog file lines 0
  have hof : (ofLines catalog file lines).headers = _ := hheaders
  rw [hof, List.mem_filterMap]
  constructor
  · rintro ⟨i, _, hi⟩
    cases hentry : entryAt catalog file lines i with
    | element g =>
      rw [hentry] at hi
      obtain rfl : g = h := Option.some.inj hi
      obtain ⟨line, hline⟩ := line_of_entryAt (by rw [hentry]; simp)
      rw [entryAt_eq catalog file lines hline] at hentry
      obtain ⟨_, rfl, _⟩ := Entry.element_of_ofLine hentry
      rw [entryAt_eq catalog file lines hline]
      exact hentry
    | constant _ | rejected _ | passed =>
      rw [hentry] at hi
      exact absurd hi (by simp [Entry.header?])
  · intro he
    obtain ⟨line, hline⟩ := line_of_entryAt (by rw [he]; simp)
    obtain ⟨hlt, _⟩ := List.getElem?_eq_some_iff.mp hline
    exact ⟨h.start, by rw [List.mem_range']; exact ⟨h.start, by omega, by omega⟩, by rw [he]; rfl⟩

theorem exists_line_of_mem_headers {h : Header} (hm : h ∈ (ofLines catalog file lines).headers) :
    ∃ line, lines[h.start]? = some line ∧
      Entry.ofLine catalog file (depthBefore lines h.start) h.start line = .element h := by
  have hentry := mem_headers.mp hm
  obtain ⟨line, hline⟩ := line_of_entryAt (by rw [hentry]; simp)
  rw [entryAt_eq catalog file lines hline] at hentry
  exact ⟨line, hline, hentry⟩

theorem file_of_mem_headers {h : Header} (hm : h ∈ (ofLines catalog file lines).headers) :
    h.file = file := by
  obtain ⟨line, _, hentry⟩ := exists_line_of_mem_headers hm
  exact Entry.file_of_ofLine hentry

theorem name_of_mem_headers {h : Header} (hm : h ∈ (ofLines catalog file lines).headers) :
    (h.name ≠ "" ∧ h.name ≠ blockOpen) ∧ catalog.reserves h.name = false := by
  obtain ⟨line, _, hentry⟩ := exists_line_of_mem_headers hm
  generalize h.start = i at hentry
  have hr := Entry.reads_ofLine catalog file i line (depthBefore lines i)
  rw [hentry] at hr
  cases hr with
  | element _ _ hn hr _ => exact ⟨not_or.mp hn, hr⟩

theorem depthBefore_of_constant {i : Nat} {c : Constant}
    (h : entryAt catalog file lines i = .constant c) : depthBefore lines i = 0 := by
  obtain ⟨line, hline⟩ := line_of_entryAt (by rw [h]; simp)
  have hr := Entry.reads_ofLine catalog file i line (depthBefore lines i)
  rw [← entryAt_eq catalog file lines hline, h] at hr
  cases hr with
  | constant hd _ _ _ _ => exact hd

/-- outside all blocks a line of a source without problems is a declaration, or it is aside -/
theorem entry_cases (hq : IsQuiet (ofLines catalog file lines).events) {i : Nat} {line : Line}
    (hline : lines[i]? = some line) (h0 : depthBefore lines i = 0) :
    (∃ h ∈ (ofLines catalog file lines).headers, h.start = i) ∨
      (line.first = "const" ∧ ∃ c, (i, c) ∈ constantPlaces catalog file lines) ∨
      OpensAside lines i := by
  have hentry := entryAt_eq catalog file lines hline
  have hr := Entry.reads_ofLine catalog file i line (depthBefore lines i)
  rw [← hentry] at hr
  generalize hgen : entryAt catalog file lines i = entry at hr
  cases hr with
  | inBlock hd => exact absurd h0 hd
  | rejected _ p =>
    obtain ⟨_, _, hevents⟩ := ofLinesFrom_entries catalog file lines 0
    obtain ⟨q, hp⟩ : ∃ q, Event.problem q ∈ (Entry.rejected p).events := by
      cases p <;> simp [Entry.events]
    exact absurd (hevents i (Nat.zero_le i) _ (by rw [hgen]; exact hp)) (hq q)
  | element _ hf hn hr ho =>
    exact Or.inl ⟨⟨line.token 1, file, i, line.number⟩, mem_headers.mpr hgen, rfl⟩
  | constant _ hf hn hs hu => exact Or.inr (Or.inl ⟨hf, _, mem_constantPlaces.mpr hgen⟩)
  | opener _ he hc ho =>
    refine Or.inr (Or.inr ⟨line, hline, ho, ?_⟩)
    rw [if_pos h0]
    exact ⟨he, hc⟩

end
end Outline
end Markup
