import Markup.Outline
import Markup.Proofs.Line.Scanned

/-!
# The braces of a source

An outline reports a closer that closes nothing, and a source that ends inside a block.  It counts
the braces of all lines but the constants outside all blocks, so it is silent about braces just if
the braces of the other lines are balanced (`silent_iff_balanced_counted`).

* `Balanced`                 no prefix of the lines closes more than it opens, and all is closed;
* `counted`, `topConstants`    the lines whose braces count, and the constants among the others;
* `Outline.IsSilent`           neither of the two problems is reported.

A constant that ends in an opener is the one line on which the two differ: where there is none,
silence is balance, and where there is one, silence and balance exclude each other.
-/

namespace Markup

/-! ## balance -/

def openCount (lines : List Line) : Nat := lines.countP Line.endsOpen

def closeCount (lines : List Line) : Nat := lines.countP Line.isLoneClose

/-- every prefix has at least as many openers as closers, and in all there are as many -/
structure Balanced (lines : List Line) : Prop where
  prefixes : ∀ n, closeCount (lines.take n) ≤ openCount (lines.take n)
  total : closeCount lines = openCount lines

/-- a prefix longer than the lines is all of them, so finitely many prefixes decide -/
instance (lines : List Line) : Decidable (Balanced lines) :=
  decidable_of_iff
    ((∀ n < lines.length + 1, closeCount (lines.take n) ≤ openCount (lines.take n)) ∧
      closeCount lines = openCount lines) <| by
    constructor
    · rintro ⟨hp, ht⟩
      refine ⟨fun n => ?_, ht⟩
      by_cases hn : n < lines.length + 1
      · exact hp n hn
      · have h : lines.take n = lines := List.take_of_length_le (by omega)
        rw [h]
        exact Nat.le_of_eq ht
    · rintro ⟨hp, ht⟩
      exact ⟨fun n _ => hp n, ht⟩

/-- the lines are balanced behind so many openers -/
structure BalancedFrom (depth : Nat) (lines : List Line) : Prop where
  prefixes : ∀ n, closeCount (lines.take n) ≤ depth + openCount (lines.take n)
  total : closeCount lines = depth + openCount lines

theorem balancedFrom_zero {lines : List Line} : BalancedFrom 0 lines ↔ Balanced lines := by
  constructor
  · rintro ⟨hp, ht⟩
    exact ⟨fun n => by rw [← Nat.zero_add (openCount _)]; exact hp n, by rw [ht, Nat.zero_add]⟩
  · rintro ⟨hp, ht⟩
    exact ⟨fun n => by rw [Nat.zero_add]; exact hp n, by rw [ht, Nat.zero_add]⟩

theorem openCount_cons (line : Line) (lines : List Line) :
    openCount (line :: lines) = openCount lines + openCount [line] := by
  rw [openCount, openCount, openCount, List.countP_cons, List.countP_singleton]

theorem closeCount_cons (line : Line) (lines : List Line) :
    closeCount (line :: lines) = closeCount lines + closeCount [line] := by
  rw [closeCount, closeCount, closeCount, List.countP_cons, List.countP_singleton]

theorem balancedFrom_nil {depth : Nat} : BalancedFrom depth [] ↔ depth = 0 := by
  constructor
  · intro h
    have ht : 0 = depth + 0 := h.total
    omega
  · rintro rfl
    exact ⟨fun n => by rw [List.take_nil]; exact Nat.le_refl 0, rfl⟩

theorem balancedFrom_cons {depth : Nat} {line : Line} {lines : List Line} :
    BalancedFrom depth (line :: lines) ↔
      ∃ d, d + closeCount [line] = depth + openCount [line] ∧ BalancedFrom d lines := by
  constructor
  · rintro ⟨hp, ht⟩
    have h1 : closeCount [line] ≤ depth + openCount [line] := hp 1
    refine ⟨depth + openCount [line] - closeCount [line], by omega, fun n => ?_, ?_⟩
    · have h := hp (n + 1)
      rw [List.take_succ_cons, closeCount_cons, openCount_cons] at h
      omega
    · rw [closeCount_cons, openCount_cons] at ht
      omega
  · rintro ⟨d, hd, hp, ht⟩
    refine ⟨fun n => ?_, ?_⟩
    · cases n with
      | zero => exact Nat.zero_le _
      | succ n =>
        have h := hp n
        rw [List.take_succ_cons, closeCount_cons, openCount_cons]
        omega
    · rw [closeCount_cons, openCount_cons]
      omega

/-! ### the braces of a scanned line -/

section
variable {line : Line} (h : line.IsScanned)
include h

theorem openCount_singleton : openCount [line] = if line.opens then 1 else 0 := by
  rw [openCount, List.countP_singleton, h.opens_eq]

theorem closeCount_singleton : closeCount [line] = if line.closes then 1 else 0 := by
  rw [closeCount, List.countP_singleton, h.closes_eq]

theorem closeCount_of_first_ne (hf : line.first ≠ blockClose) : closeCount [line] = 0 := by
  rw [closeCount_singleton h, if_neg fun hc => hf (h.first_eq_blockClose_iff.mpr hc)]

theorem balancedFrom_cons_of_opens (ho : line.opens = true) {depth : Nat} {lines : List Line} :
    BalancedFrom depth (line :: lines) ↔ BalancedFrom (depth + 1) lines := by
  have hc : line.closes ≠ true := fun hc => h.not_opens_of_closes hc ho
  rw [balancedFrom_cons, openCount_singleton h, closeCount_singleton h, if_pos ho, if_neg hc]
  constructor
  · rintro ⟨d, hd, hb⟩
    rwa [← hd]
  · exact fun hb => ⟨depth + 1, rfl, hb⟩

theorem balancedFrom_cons_of_closes (hc : line.closes = true) {depth : Nat} {lines : List Line} :
    BalancedFrom depth (line :: lines) ↔ depth ≠ 0 ∧ BalancedFrom (depth - 1) lines := by
  rw [balancedFrom_cons, openCount_singleton h, closeCount_singleton h, if_pos hc,
    if_neg (h.not_opens_of_closes hc)]
  constructor
  · rintro ⟨d, hd, hb⟩
    refine ⟨by omega, ?_⟩
    have e : depth - 1 = d := by omega
    rwa [e]
  · rintro ⟨hd, hb⟩
    exact ⟨depth - 1, by omega, hb⟩

theorem balancedFrom_cons_of_neither (ho : line.opens ≠ true) (hc : line.closes ≠ true)
    {depth : Nat} {lines : List Line} :
    BalancedFrom depth (line :: lines) ↔ BalancedFrom depth lines := by
  rw [balancedFrom_cons, openCount_singleton h, closeCount_singleton h, if_neg ho, if_neg hc]
  constructor
  · rintro ⟨d, hd, hb⟩
    have e : depth = d := by omega
    rwa [e]
  · exact fun hb => ⟨depth, rfl, hb⟩

end

/-! ## the lines that count -/

/-- the lines from a depth of open blocks on, each with the depth before it -/
def withDepth : Nat → List Line → List (Nat × Line)
  | _, [] => []
  | depth, line :: lines => (depth, line) :: withDepth (depthAfter depth line) lines

def isTopConstant (entry : Nat × Line) : Bool := entry.1 == 0 && entry.2.first == "const"

/-- the lines whose braces an outline counts, from a depth on -/
def counted (depth : Nat) (lines : List Line) : List Line :=
  ((withDepth depth lines).filter fun entry => !isTopConstant entry).map Prod.snd

/-- the constants outside all blocks, from a depth on -/
def topConstants (depth : Nat) (lines : List Line) : List Line :=
  ((withDepth depth lines).filter isTopConstant).map Prod.snd

theorem isTopConstant_iff {depth : Nat} {line : Line} :
    isTopConstant (depth, line) = true ↔ depth = 0 ∧ line.first = "const" := by
  rw [isTopConstant, Bool.and_eq_true, beq_iff_eq, beq_iff_eq]

section
variable {depth : Nat} {line : Line} {lines : List Line}

theorem counted_cons_of_constant (h : depth = 0 ∧ line.first = "const") :
    counted depth (line :: lines) = counted 0 lines := by
  have hd : depthAfter depth line = 0 := if_pos h
  rw [counted, withDepth, hd, List.filter_cons_of_neg]
  · rfl
  · rw [isTopConstant_iff.mpr h]
    exact Bool.false_ne_true

theorem counted_cons (h : ¬(depth = 0 ∧ line.first = "const")) :
    counted depth (line :: lines) = line :: counted (depthAfter depth line) lines := by
  have ht : isTopConstant (depth, line) = false :=
    Bool.eq_false_iff.mpr fun e => h (isTopConstant_iff.mp e)
  rw [counted, withDepth, List.filter_cons_of_pos (by rw [ht]; rfl)]
  rfl

theorem topConstants_cons_of_constant (h : depth = 0 ∧ line.first = "const") :
    topConstants depth (line :: lines) = line :: topConstants 0 lines := by
  have hd : depthAfter depth line = 0 := if_pos h
  rw [topConstants, withDepth, hd, List.filter_cons_of_pos (isTopConstant_iff.mpr h)]
  rfl

theorem topConstants_cons (h : ¬(depth = 0 ∧ line.first = "const")) :
    topConstants depth (line :: lines) = topConstants (depthAfter depth line) lines := by
  rw [topConstants, withDepth, List.filter_cons_of_neg fun e => h (isTopConstant_iff.mp e)]
  rfl

end

/-- a line that has `const` in front is no closer, so all closers count -/
theorem counts_eq_add (depth : Nat) (lines : List Line) (hl : ∀ line ∈ lines, line.IsScanned) :
    closeCount lines = closeCount (counted depth lines) ∧
      openCount lines = openCount (counted depth lines) + openCount (topConstants depth lines) := by
  induction lines generalizing depth with
  | nil => exact ⟨rfl, rfl⟩
  | cons line lines ih =>
    have hline := hl line List.mem_cons_self
    have hlines : ∀ l ∈ lines, l.IsScanned := fun l hm => hl l (List.mem_cons_of_mem _ hm)
    rw [closeCount_cons, openCount_cons]
    by_cases h : depth = 0 ∧ line.first = "const"
    · obtain ⟨hc, ho⟩ := ih 0 hlines
      have h0 : closeCount [line] = 0 :=
        closeCount_of_first_ne hline (by rw [h.2]; decide)
      rw [counted_cons_of_constant h, topConstants_cons_of_constant h, openCount_cons line
        (topConstants 0 lines)]
      omega
    · obtain ⟨hc, ho⟩ := ih (depthAfter depth line) hlines
      rw [counted_cons h, topConstants_cons h, closeCount_cons line (counted _ _),
        openCount_cons line (counted _ _)]
      omega

theorem balancedFrom_counted (depth d : Nat) (lines : List Line)
    (hl : ∀ line ∈ lines, line.IsScanned) (h : openCount (topConstants depth lines) = 0) :
    BalancedFrom d (counted depth lines) ↔ BalancedFrom d lines := by
  induction lines generalizing depth d with
  | nil => exact Iff.rfl
  | cons line lines ih =>
    have hlines : ∀ l ∈ lines, l.IsScanned := fun l hm => hl l (List.mem_cons_of_mem _ hm)
    by_cases hc : depth = 0 ∧ line.first = "const"
    · rw [topConstants_cons_of_constant hc, openCount_cons] at h
      have h0 : closeCount [line] = 0 :=
        closeCount_of_first_ne (hl line List.mem_cons_self) (by rw [hc.2]; decide)
      have h1 : openCount [line] = 0 := by omega
      rw [counted_cons_of_constant hc, balancedFrom_cons, h0, h1, ih 0 d hlines (by omega)]
      constructor
      · exact fun hb => ⟨d, rfl, hb⟩
      · rintro ⟨d', hd', hb⟩
        have e : d = d' := by omega
        rwa [e]
    · rw [topConstants_cons hc] at h
      rw [counted_cons hc, balancedFrom_cons, balancedFrom_cons]
      constructor
      · rintro ⟨d', hd', hb⟩
        exact ⟨d', hd', (ih _ d' hlines h).mp hb⟩
      · rintro ⟨d', hd', hb⟩
        exact ⟨d', hd', (ih _ d' hlines h).mpr hb⟩

/-! ## silence -/

/-- nothing is said of braces: no closer is unexpected, and no block is left open -/
def Outline.IsSilent (o : Outline) : Prop :=
  Event.problem (.unexpected blockClose) ∉ o.events ∧ Event.problem .unclosedBlock ∉ o.events

namespace Entry

theorem brace_events_element (catalog : Catalog) (file : String) (index : Nat) (line : Line) :
    Event.problem (.unexpected blockClose) ∉ (ofElementLine catalog file index line).events ∧
      Event.problem .unclosedBlock ∉ (ofElementLine catalog file index line).events := by
  unfold ofElementLine
  simp only
  split
  · simp [events]
  · split
    · simp [events]
    · split <;> simp [events]

theorem brace_events_constant (line : Line) :
    Event.problem (.unexpected blockClose) ∉ (ofConstantLine line).events ∧
      Event.problem .unclosedBlock ∉ (ofConstantLine line).events := by
  unfold ofConstantLine
  simp only
  split
  · simp [events]
  · split
    · simp [events]
    · split
      · simp [events]
      · split <;> simp [events]

/-- a closer outside all blocks is unexpected, and no other line says anything of braces -/
theorem brace_events (catalog : Catalog) (file : String) (depth index : Nat) {line : Line}
    (h : line.IsScanned) :
    (Event.problem (.unexpected blockClose) ∈ (ofLine catalog file depth index line).events ↔
      depth = 0 ∧ line.closes = true) ∧
    Event.problem .unclosedBlock ∉ (ofLine catalog file depth index line).events := by
  rw [← h.first_eq_blockClose_iff]
  unfold ofLine
  by_cases hd : depth = 0
  · rw [if_neg (not_not_intro hd)]
    by_cases he : line.first = "element"
    · obtain ⟨h1, h2⟩ := brace_events_element catalog file index line
      rw [if_pos he, he]
      exact ⟨⟨fun hm => absurd hm h1, fun hm => absurd hm.2 (by decide)⟩, h2⟩
    · by_cases hk : line.first = "const"
      · obtain ⟨h1, h2⟩ := brace_events_constant line
        rw [if_neg he, if_pos hk, hk]
        exact ⟨⟨fun hm => absurd hm h1, fun hm => absurd hm.2 (by decide)⟩, h2⟩
      · rw [if_neg he, if_neg hk]
        by_cases hc : line.closes = true
        · rw [if_neg (h.not_opens_of_closes hc), if_pos hc]
          simp [events, hd, h.first_eq_blockClose_iff.mpr hc]
        · have hf : line.first ≠ blockClose := fun hf => hc (h.first_eq_blockClose_iff.mp hf)
          rw [if_neg hc]
          split <;> simp [events, hf, Ne.symm hf]
  · rw [if_pos hd]
    simp [events, hd]

end Entry

namespace Outline

theorem isSilent_atEnd {depth count : Nat} : (atEnd depth count).IsSilent ↔ depth = 0 := by
  unfold atEnd
  by_cases h : depth = 0
  · rw [if_pos h]
    simp [IsSilent, h]
  · rw [if_neg h]
    simp [IsSilent, h]

theorem isSilent_add (catalog : Catalog) (file : String) (depth index : Nat) {line : Line}
    (h : line.IsScanned) (o : Outline) :
    (o.add index (Entry.ofLine catalog file depth index line)).IsSilent ↔
      ¬(depth = 0 ∧ line.closes = true) ∧ o.IsSilent := by
  obtain ⟨hu, hb⟩ := Entry.brace_events catalog file depth index h
  simp only [IsSilent, add, List.cons_append, List.mem_cons, List.mem_append, hu, hb]
  simp only [reduceCtorEq, false_or, not_or, and_assoc]

theorem isSilent_ofLinesFrom (catalog : Catalog) (file : String) (depth index : Nat)
    (lines : List Line) (hl : ∀ line ∈ lines, line.IsScanned) :
    (ofLinesFrom catalog file depth index lines).IsSilent ↔
      BalancedFrom depth (counted depth lines) := by
  induction lines generalizing depth index with
  | nil => rw [ofLinesFrom_nil, isSilent_atEnd]; exact balancedFrom_nil.symm
  | cons line lines ih =>
    have hline := hl line List.mem_cons_self
    rw [ofLinesFrom_cons, isSilent_add _ _ _ _ hline,
      ih _ _ fun l hm => hl l (List.mem_cons_of_mem _ hm)]
    by_cases hk : depth = 0 ∧ line.first = "const"
    · have hd : depthAfter depth line = 0 := if_pos hk
      have hc : line.closes ≠ true := fun hc => by
        have hf := hline.first_eq_blockClose_iff.mpr hc
        rw [hk.2] at hf
        exact absurd hf (by decide)
      rw [counted_cons_of_constant hk, hd, hk.1]
      exact ⟨fun hb => hb.2, fun hb => ⟨fun h => hc h.2, hb⟩⟩
    · rw [counted_cons hk]
      by_cases ho : line.opens = true
      · have hd : depthAfter depth line = depth + 1 := by rw [depthAfter, if_neg hk, if_pos ho]
        have hc : line.closes ≠ true := fun hc => hline.not_opens_of_closes hc ho
        rw [balancedFrom_cons_of_opens hline ho, hd]
        exact ⟨fun hb => hb.2, fun hb => ⟨fun h => hc h.2, hb⟩⟩
      · by_cases hc : line.closes = true
        · have hd : depthAfter depth line = depth - 1 := by
            rw [depthAfter, if_neg hk, if_neg ho, if_pos hc]
          rw [balancedFrom_cons_of_closes hline hc, hd]
          exact ⟨fun hb => ⟨fun h0 => hb.1 ⟨h0, hc⟩, hb.2⟩, fun hb => ⟨fun h => hb.1 h.1, hb.2⟩⟩
        · have hd : depthAfter depth line = depth := by
            rw [depthAfter, if_neg hk, if_neg ho, if_neg hc]
          rw [balancedFrom_cons_of_neither hline ho hc, hd]
          exact ⟨fun hb => hb.2, fun hb => ⟨fun h => hc h.2, hb⟩⟩

/-- an outline is silent about braces if the lines that count are balanced -/
theorem silent_iff_balanced_counted (catalog : Catalog) (file source : String) :
    (ofLines catalog file (Line.ofSource source)).IsSilent ↔
      Balanced (counted 0 (Line.ofSource source)) := by
  rw [← balancedFrom_zero]
  exact isSilent_ofLinesFrom catalog file 0 0 _ fun _ h => Line.isScanned_of_mem h

/-- where no constant outside all blocks ends in an opener, silence is balance; where one does,
silent lines are not balanced and balanced lines are not silent -/
theorem silent_iff_balanced (catalog : Catalog) (file source : String) :
    let lines := Line.ofSource source
    let o := ofLines catalog file lines
    (o.IsSilent ↔ Balanced (counted 0 lines)) ∧
      ((∀ line ∈ topConstants 0 lines, line.endsOpen = false) →
        (o.IsSilent ↔ Balanced lines)) ∧
      ((∃ line ∈ topConstants 0 lines, line.endsOpen = true) →
        ¬(o.IsSilent ∧ Balanced lines)) := by
  intro lines o
  have hl : ∀ line ∈ lines, line.IsScanned := fun _ h => Line.isScanned_of_mem h
  have hs : o.IsSilent ↔ Balanced (counted 0 lines) :=
    silent_iff_balanced_counted catalog file source
  refine ⟨hs, fun hno => ?_, ?_⟩
  · have h0 : openCount (topConstants 0 lines) = 0 := by
      rw [openCount, List.countP_eq_zero]
      exact fun line hm => Bool.eq_false_iff.mp (hno line hm)
    rw [hs, ← balancedFrom_zero, ← balancedFrom_zero]
    exact balancedFrom_counted 0 0 lines hl h0
  · rintro ⟨line, hm, he⟩ ⟨hsil, hb⟩
    have hpos : 0 < openCount (topConstants 0 lines) :=
      List.countP_pos_iff.mpr ⟨line, hm, he⟩
    obtain ⟨hc, ho⟩ := counts_eq_add 0 lines hl
    -- both totals agree, which leaves no opener for the constants
    have h1 := (hs.mp hsil).total
    have h2 := hb.total
    omega

/-- an opener at the end of a constant is not counted, so its closer is unexpected -/
theorem balanced_constant_not_silent :
    ¬((ofLines .standard "a.kml" (Line.ofSource "const A = 1 \x7b\n\x7d")).IsSilent ↔
      Balanced (Line.ofSource "const A = 1 \x7b\n\x7d")) := by
  rw [silent_iff_balanced_counted]
  decide

end Outline
end Markup
