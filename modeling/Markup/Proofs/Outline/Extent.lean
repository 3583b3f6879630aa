import Markup.Line.Source
import Markup.Outline
import Markup.Proofs.Block.Extent
import Markup.Proofs.Outline.Entry

/-!
# The extents of elements

An outline finds the headers of elements by counting blocks, and passes over the lines behind a
header until no block is open.  Reading the element of the header counts by other rules: the outline
looks for braces anywhere on a line, the reading of a block at its first token, and in each block
anew.  Both end at the same line, so what is read for a header lies behind it and up to there.

* `depthBefore`        the number of open blocks that an outline counts;
* `blockEnd`         the line at which that number is back at 0;
* `blockEnd_eq`        it is the end of the block in the sense of `blockLength`;
* `Header.covers`      the lines from a header to the end of its block.
-/

namespace Markup

/-! ## the end of a block in an outline -/

/-- the number of open blocks before the line at place `i`, as an outline counts them -/
def depthBefore (lines : List Line) (i : Nat) : Nat := (lines.take i).foldl depthAfter 0

/-- the first place behind `start` with no block open after its line, or the last place -/
def blockEnd (lines : List Line) (start : Nat) : Nat :=
  ((List.range lines.length).find? fun i => start < i && depthBefore lines (i + 1) == 0).getD
    (lines.length - 1)

theorem depthBefore_add (lines : List Line) (i n : Nat) :
    depthBefore lines (i + n) = ((lines.drop i).take n).foldl depthAfter (depthBefore lines i) := by
  rw [depthBefore, List.take_add, List.foldl_append]
  rfl

theorem blockEnd_of_closed {lines : List Line} {start e : Nat} (he : e < lines.length)
    (hs : start < e) (h0 : depthBefore lines (e + 1) = 0)
    (hlt : ∀ i, start < i → i < e → depthBefore lines (i + 1) ≠ 0) : blockEnd lines start = e := by
  have hfind : (List.range lines.length).find?
      (fun i => start < i && depthBefore lines (i + 1) == 0) = some e := by
    rw [List.find?_range_eq_some]
    refine ⟨by simp [hs, h0], List.mem_range.mpr he, fun i hi => ?_⟩
    by_cases hsi : start < i
    · simp [hlt i hsi hi]
    · simp [hsi]
  rw [blockEnd, hfind]
  rfl

theorem blockEnd_of_open {lines : List Line} {start : Nat}
    (h : ∀ i, start < i → i < lines.length → depthBefore lines (i + 1) ≠ 0) :
    blockEnd lines start = lines.length - 1 := by
  have hfind : (List.range lines.length).find?
      (fun i => start < i && depthBefore lines (i + 1) == 0) = none := by
    rw [List.find?_range_eq_none]
    intro i hi
    by_cases hsi : start < i
    · simp [h i hsi hi]
    · simp [hsi]
  rw [blockEnd, hfind]
  rfl

theorem blockEnd_le {lines : List Line} {start i : Nat} (hs : start < i) (hi : i < lines.length)
    (h0 : depthBefore lines (i + 1) = 0) : blockEnd lines start ≤ i := by
  cases hfind : (List.range lines.length).find?
      (fun i => start < i && depthBefore lines (i + 1) == 0) with
  | none =>
    rw [List.find?_range_eq_none] at hfind
    have h := hfind i hi
    simp [hs, h0] at h
  | some e =>
    rw [blockEnd, hfind, Option.getD_some]
    refine Nat.le_of_not_lt fun hlt => ?_
    have h := (List.find?_range_eq_some.mp hfind).2.2 i hlt
    simp [hs, h0] at h

/-- the block of a line ends before any later line outside all blocks -/
theorem blockEnd_lt {lines : List Line} {start i : Nat} (h1 : depthBefore lines (start + 1) = 1)
    (hs : start < i) (hi : i < lines.length) (h0 : depthBefore lines i = 0) :
    blockEnd lines start < i := by
  have hp : i - 1 + 1 = i := by omega
  have hlt : start < i - 1 := by
    refine Nat.lt_of_le_of_ne (by omega) fun he => ?_
    rw [he, hp, h0] at h1
    exact absurd h1 Nat.zero_ne_one
  have hle : blockEnd lines start ≤ i - 1 :=
    blockEnd_le hlt (by omega) (by rw [hp]; exact h0)
  omega

/-! ## the same count in the block -/

/-- in a block every line counts for its braces -/
theorem depthAfter_succ (depth : Nat) (line : Line) :
    depthAfter (depth + 1) line =
      if line.opens then depth + 2 else if line.closes then depth else depth + 1 := by
  have hk : ¬(depth + 1 = 0 ∧ line.first = "const") := fun hk => absurd hk.1 (Nat.succ_ne_zero _)
  rw [depthAfter, if_neg hk]
  rfl

theorem depthAfter_succ_eq {line : Line} (h : line.IsScanned) (depth : Nat) :
    depthAfter (depth + 1) line =
      if line.first = blockClose then depth
      else if line.opens then depth + 2 else depth + 1 := by
  rw [depthAfter_succ]
  by_cases hc : line.first = blockClose
  · have hcl : line.closes = true := h.first_eq_blockClose_iff.mp hc
    rw [if_pos hc, if_neg (h.not_opens_of_closes hcl), if_pos hcl]
  · rw [if_neg hc, if_neg fun hcl => hc (h.first_eq_blockClose_iff.mpr hcl)]

/-- up to the end of a block the outline counts it as open; there, it does not.  `base` blocks are
open around it -/
theorem foldl_depthAfter_blockLength (base depth : Nat) (lines : List Line)
    (hl : ∀ line ∈ lines, line.IsScanned) :
    (∀ n < blockLength depth lines, base < (lines.take n).foldl depthAfter (base + depth + 1)) ∧
      ((lines.take (blockLength depth lines)).foldl depthAfter (base + depth + 1) = base ∨
        blockLength depth lines = lines.length) := by
  induction lines generalizing depth with
  | nil =>
    refine ⟨fun n _ => ?_, Or.inr rfl⟩
    rw [List.take_nil, List.foldl_nil]
    omega
  | cons line lines ih =>
    have hlines : ∀ l ∈ lines, l.IsScanned := fun l hm => hl l (List.mem_cons_of_mem _ hm)
    have hd := depthAfter_succ_eq (hl line List.mem_cons_self) (base + depth)
    by_cases h : line.first = blockClose
    · rw [if_pos h] at hd
      cases depth with
      | zero =>
        rw [blockLength_zero_close h]
        refine ⟨fun n hn => ?_, Or.inl hd⟩
        obtain rfl : n = 0 := by omega
        exact Nat.lt_succ_self base
      | succ depth =>
        obtain ⟨hlt, hend⟩ := ih depth hlines
        rw [blockLength_succ_close h]
        refine ⟨fun n hn => ?_, ?_⟩
        · cases n with
          | zero =>
            rw [List.take_zero, List.foldl_nil]
            omega
          | succ n =>
            rw [List.take_succ_cons, List.foldl_cons, hd]
            exact hlt n (Nat.lt_of_succ_lt_succ hn)
        · rw [List.take_succ_cons, List.foldl_cons, hd]
          exact hend.imp_right (congrArg Nat.succ)
    · have hd' : depthAfter (base + depth + 1) line =
          base + (if line.opens then depth + 1 else depth) + 1 := by
        rw [hd, if_neg h]
        split <;> rfl
      obtain ⟨hlt, hend⟩ := ih (if line.opens then depth + 1 else depth) hlines
      rw [blockLength_cons h]
      refine ⟨fun n hn => ?_, ?_⟩
      · cases n with
        | zero =>
          rw [List.take_zero, List.foldl_nil]
          omega
        | succ n =>
          rw [List.take_succ_cons, List.foldl_cons, hd']
          exact hlt n (Nat.lt_of_succ_lt_succ hn)
      · rw [List.take_succ_cons, List.foldl_cons, hd']
        exact hend.imp_right (congrArg Nat.succ)

theorem blockEnd_eq {lines : List Line} (hl : ∀ line ∈ lines, line.IsScanned) {start : Nat}
    (hs : start < lines.length) (h1 : depthBefore lines (start + 1) = 1) :
    blockEnd lines start = start + blockLength 0 (lines.drop (start + 1)) := by
  obtain ⟨hwithin, hend⟩ := foldl_depthAfter_blockLength 0 0 (lines.drop (start + 1))
    fun line hm => hl line (List.mem_of_mem_drop hm)
  have hadd : ∀ n, depthBefore lines (start + n + 1) =
      ((lines.drop (start + 1)).take n).foldl depthAfter 1 := by
    intro n
    have hn : start + n + 1 = start + 1 + n := by omega
    rw [hn, depthBefore_add, h1]
  have hlen : (lines.drop (start + 1)).length = lines.length - (start + 1) := List.length_drop
  have hle := blockLength_le 0 (lines.drop (start + 1))
  have hopen : ∀ i, start < i → i < start + blockLength 0 (lines.drop (start + 1)) →
      depthBefore lines (i + 1) ≠ 0 := by
    intro i hi hlt
    obtain ⟨n, rfl⟩ := Nat.exists_eq_add_of_lt hi
    rw [Nat.add_assoc start n 1, hadd]
    exact Nat.ne_of_gt (hwithin _ (by omega))
  by_cases h0 : depthBefore lines (start + blockLength 0 (lines.drop (start + 1)) + 1) = 0
  · have hpos : blockLength 0 (lines.drop (start + 1)) ≠ 0 := by
      intro hz
      rw [hz, Nat.add_zero, h1] at h0
      exact absurd h0 Nat.one_ne_zero
    exact blockEnd_of_closed (by omega) (by omega) h0 hopen
  · rw [hadd] at h0
    have hbl : blockLength 0 (lines.drop (start + 1)) = lines.length - (start + 1) :=
      (hend.resolve_left h0).trans hlen
    rw [blockEnd_of_open]
    · omega
    · intro i hi hlt
      by_cases he : i = start + blockLength 0 (lines.drop (start + 1))
      · rw [he, hadd]
        exact h0
      · exact hopen i hi (by omega)

/-! ## headers -/

namespace Entry

variable {catalog : Catalog} {file : String} {depth index : Nat} {line : Line} {h : Header}

/-- a header stands outside all blocks, knows its place, and opens a block -/
theorem element_of_ofLine (he : ofLine catalog file depth index line = element h) :
    depth = 0 ∧ h.start = index ∧ depthAfter 0 line = 1 := by
  have hr := reads_ofLine catalog file index line depth
  rw [he] at hr
  cases hr with
  | element hd hf hn hr ho =>
    have hk : ¬((0 : Nat) = 0 ∧ line.first = "const") := by
      rw [hf]; decide
    refine ⟨hd, rfl, ?_⟩
    rw [depthAfter, if_neg hk, if_pos (Line.opens_of_token_eq ho)]

theorem file_of_ofLine (he : ofLine catalog file depth index line = element h) : h.file = file := by
  have hr := reads_ofLine catalog file index line depth
  rw [he] at hr
  cases hr with
  | element _ _ _ _ _ => rfl

end Entry

namespace Outline

variable (catalog : Catalog) (file : String)

theorem headers_add (index : Nat) (entry : Entry) (o : Outline) :
    (o.add index entry).headers = o.headers ∨
      ∃ h, entry = .element h ∧ (o.add index entry).headers = h :: o.headers := by
  cases entry with
  | element h => exact Or.inr ⟨h, rfl, rfl⟩
  | constant _ | rejected _ | passed => exact Or.inl rfl

theorem header_line {depth index : Nat} {lines : List Line} {h : Header}
    (hm : h ∈ (ofLinesFrom catalog file depth index lines).headers) :
    ∃ n < lines.length, h.start = index + n ∧ (lines.take n).foldl depthAfter depth = 0 ∧
      (lines.take (n + 1)).foldl depthAfter depth = 1 := by
  induction lines generalizing depth index with
  | nil =>
    rw [ofLinesFrom_nil, atEnd] at hm
    split at hm <;> exact absurd hm List.not_mem_nil
  | cons line lines ih =>
    rw [ofLinesFrom_cons] at hm
    have hrest : h ∈ (ofLinesFrom catalog file (depthAfter depth line) (index + 1) lines).headers →
        ∃ n < (line :: lines).length, h.start = index + n ∧
          ((line :: lines).take n).foldl depthAfter depth = 0 ∧
          ((line :: lines).take (n + 1)).foldl depthAfter depth = 1 := by
      intro hm
      obtain ⟨n, hn, hs, h0, h1⟩ := ih hm
      exact ⟨n + 1, Nat.succ_lt_succ hn, by omega, h0, h1⟩
    rcases headers_add index (Entry.ofLine catalog file depth index line) _ with he | ⟨g, hg, he⟩
    · rw [he] at hm
      exact hrest hm
    · rw [he] at hm
      rcases List.mem_cons.mp hm with rfl | hm
      · obtain ⟨rfl, hs, h1⟩ := Entry.element_of_ofLine hg
        exact ⟨0, Nat.succ_pos _, hs, rfl, h1⟩
      · exact hrest hm

theorem depthBefore_of_mem_headers {lines : List Line} {h : Header}
    (hm : h ∈ (ofLines catalog file lines).headers) :
    h.start < lines.length ∧ depthBefore lines h.start = 0 ∧ depthBefore lines (h.start + 1) = 1 := by
  obtain ⟨n, hn, hs, h0, h1⟩ := header_line catalog file hm
  obtain rfl : h.start = n := by omega
  exact ⟨hn, h0, h1⟩

/-- headers come in the order of their lines -/
theorem pairwise_start (depth index : Nat) (lines : List Line) :
    (ofLinesFrom catalog file depth index lines).headers.Pairwise fun h h' => h.start < h'.start := by
  induction lines generalizing depth index with
  | nil =>
    rw [ofLinesFrom_nil, atEnd]
    split <;> exact List.Pairwise.nil
  | cons line lines ih =>
    rw [ofLinesFrom_cons]
    rcases headers_add index (Entry.ofLine catalog file depth index line) _ with he | ⟨g, hg, he⟩
    · rw [he]
      exact ih _ _
    · rw [he, List.pairwise_cons]
      refine ⟨fun h hm => ?_, ih _ _⟩
      obtain ⟨n, _, hs, _, _⟩ := header_line catalog file hm
      have hgs := (Entry.element_of_ofLine hg).2.1
      omega

end Outline

/-- the element of a header is read from the lines of its block -/
theorem Header.reads_build (catalog : Catalog) (lines : List Line) (h : Header) :
    (h.build catalog lines).Reads (h.start + 1) (blockLength 0 (lines.drop (h.start + 1))) ∧
      (h.build catalog lines).IsAnchored := by
  have hr := reads_readBlock catalog true (.bare h.name .userDefined) 0 false (h.start + 1)
    (lines.drop (h.start + 1))
  have ha := isAnchored_readBlock catalog true (.bare h.name .userDefined) 0 false (h.start + 1)
    (lines.drop (h.start + 1))
  have hnote := hr.bind_pure fun root => DeclaredElement.mk root h.file
  refine ⟨⟨fun x hx => ?_, hnote.last⟩, fun i j => ?_⟩
  · rcases List.mem_cons.mp hx with rfl | hx
    · trivial
    · exact hnote.within x hx
  · show reportsFrom i (Traced.bind _ _).events = reportsFrom j (Traced.bind _ _).events
    rw [Traced.events_bind_pure]
    exact ha i j

/-- the place lies in the extent of the header, which goes from the header to the end of its block -/
def Header.covers (lines : List Line) (h : Header) (i : Nat) : Prop :=
  h.start ≤ i ∧ i ≤ blockEnd lines h.start

namespace Outline

/-- the outline and the readings agree on the extents of elements: what is read for a header lies
behind it and up to the end of its block, at which the reading ends unless a bracket ends it, and
different headers have disjoint extents -/
theorem extents_agree (catalog : Catalog) (file source : String) :
    let lines := Line.ofSource source
    let headers := (ofLines catalog file lines).headers
    (∀ h ∈ headers,
      let built := h.build catalog lines
      let stop := blockEnd lines h.start
      (∀ i ∈ linesSeen built.events, h.start < i ∧ i ≤ stop) ∧
        (∀ k, ∀ report ∈ reportsFrom k built.events, h.start < report.1 ∧ report.1 ≤ stop) ∧
        ∀ e, built.result = .ok e → lineAfter h.start built.events = stop) ∧
      headers.Pairwise fun h h' =>
        ∀ i, ¬(h.covers lines i ∧ h'.covers lines i) := by
  intro lines headers
  have hl : ∀ line ∈ lines, line.IsScanned := fun _ hm => Line.isScanned_of_mem hm
  refine ⟨fun h hm => ?_, ?_⟩
  · intro built stop
    obtain ⟨hs, _, h1⟩ := depthBefore_of_mem_headers catalog file hm
    obtain ⟨⟨hwithin, hlast⟩, hanchor⟩ := Header.reads_build catalog lines h
    have hstop : stop = h.start + blockLength 0 (lines.drop (h.start + 1)) := blockEnd_eq hl hs h1
    refine ⟨fun i hi => ?_, fun k report hr => ?_, fun e he => ?_⟩
    · have hw := linesSeen_within hwithin i hi
      omega
    · -- no report is of the line that was looked at before, whichever it was
      rw [hanchor k (report.1 + 1)] at hr
      have hw := reportsFrom_within hwithin _ report hr
      omega
    · have hw := hlast e he h.start (Or.inr rfl)
      show lineAfter h.start (h.build catalog lines).events = stop
      omega
  · refine (pairwise_start catalog file 0 0 lines).imp_of_mem fun {h h'} hm hm' hlt => ?_
    obtain ⟨_, _, h1⟩ := depthBefore_of_mem_headers catalog file hm
    obtain ⟨hs', h0', _⟩ := depthBefore_of_mem_headers catalog file hm'
    have hend := blockEnd_lt h1 hlt hs' h0'
    rintro i ⟨⟨_, hi⟩, ⟨hi', _⟩⟩
    omega

end Outline
end Markup
