import Markup.Proofs.Block.Echo
import Markup.Proofs.Outline.Extent

/-!
# Outlines that are taken twice

An outline depends on the tokens of its lines, too: taken again from lines with the same tokens that
stand further down, it finds the same declarations there and makes the same remarks
(`Outline.ofLinesFrom_echoes`).  At a place with no block open it goes on as an outline that begins
(`Outline.ofLinesFrom_append`).

* `Entry.lowered`       what becomes of an entry on a line further down;
* `Outline.Echoes`      outlines that echo each other.
-/

namespace Markup

/-! ## entries -/

/-- the problem on a line with this number -/
def Problem.numbered (n : Nat) : Problem → Problem
  | unclosedBracket bracket => unclosedBracket { bracket with line := n }
  | p => p

theorem Problem.message_numbered (n : Nat) (p : Problem) : (p.numbered n).message = p.message := by
  cases p <;> rfl

theorem Problem.severity_numbered (n : Nat) (p : Problem) :
    (p.numbered n).severity = p.severity := by
  cases p <;> rfl

namespace Entry

/-- the entry on a line with this number, `k` places further down -/
def lowered (k n : Nat) : Entry → Entry
  | element h => element { h with start := h.start + k, startLine := n }
  | rejected p => rejected (p.numbered n)
  | constant c => constant c
  | passed => passed

section
variable (k m n : Nat) (ts : List String)

theorem ofElementLine_lowered (catalog : Catalog) (file : String) (index : Nat) :
    ofElementLine catalog file (index + k) ⟨ts, n⟩ =
      (ofElementLine catalog file index ⟨ts, m⟩).lowered k n := by
  have htoken : ∀ i, Line.token ⟨ts, n⟩ i = Line.token ⟨ts, m⟩ i := fun _ => rfl
  unfold ofElementLine
  simp only [htoken]
  split
  · rfl
  · split
    · rfl
    · split <;> rfl

theorem ofConstantLine_lowered :
    ofConstantLine ⟨ts, n⟩ = (ofConstantLine ⟨ts, m⟩).lowered k n := by
  have htoken : ∀ i, Line.token ⟨ts, n⟩ i = Line.token ⟨ts, m⟩ i := fun _ => rfl
  unfold ofConstantLine requireClosed
  simp only [htoken]
  split
  · rfl
  · split
    · rfl
    · split
      · rfl
      · cases unclosed? (ts.drop 3) <;> rfl

theorem ofLine_lowered (catalog : Catalog) (file : String) (depth index : Nat) :
    ofLine catalog file depth (index + k) ⟨ts, n⟩ =
      (ofLine catalog file depth index ⟨ts, m⟩).lowered k n := by
  have hfirst : Line.first ⟨ts, n⟩ = Line.first ⟨ts, m⟩ := rfl
  have hopens : Line.opens ⟨ts, n⟩ = Line.opens ⟨ts, m⟩ := rfl
  have hcloses : Line.closes ⟨ts, n⟩ = Line.closes ⟨ts, m⟩ := rfl
  unfold ofLine
  rw [hfirst, hopens, hcloses]
  by_cases hd : depth ≠ 0
  · rw [if_pos hd, if_pos hd]
    rfl
  · rw [if_neg hd, if_neg hd]
    by_cases he : Line.first ⟨ts, m⟩ = "element"
    · rw [if_pos he, if_pos he]
      exact ofElementLine_lowered k m n ts catalog file index
    · rw [if_neg he, if_neg he]
      by_cases hc : Line.first ⟨ts, m⟩ = "const"
      · rw [if_pos hc, if_pos hc]
        exact ofConstantLine_lowered k m n ts
      · rw [if_neg hc, if_neg hc]
        split
        · rfl
        · split <;> rfl

end

theorem ofLine_of_tokens {line line' : Line} (h : line.tokens = line'.tokens) (catalog : Catalog)
    (file : String) (depth k index : Nat) : ofLine catalog file depth (index + k) line' =
      (ofLine catalog file depth index line).lowered k line'.number := by
  obtain ⟨ts, m⟩ := line
  obtain ⟨ts', n⟩ := line'
  obtain rfl : ts = ts' := h
  exact ofLine_lowered k m n ts catalog file depth index

theorem echoes_events (k n : Nat) (e : Entry) : Echoes k e.events (e.lowered k n).events := by
  cases e with
  | element h => exact echoes_note k _ _
  | constant _ | passed => exact echoes_nil k
  | rejected p =>
    have hproblem : Echoes k [.problem p] [.problem (p.numbered n)] :=
      echoes_problem k (Problem.message_numbered n p).symm (Problem.severity_numbered n p).symm
    cases p with
    | unclosedBracket b => exact (echoes_note k _ _).append hproblem
    | _ => exact hproblem

end Entry

/-! ## outlines -/

namespace Outline

/-- the outline `o'` finds what `o` finds, `k` lines further down, and makes the same remarks -/
structure Echoes (k : Nat) (o o' : Outline) : Prop where
  headers : List.Forall₂ (Header.IsLowered k) o.headers o'.headers
  constants : o'.constants = o.constants
  events : Markup.Echoes k o.events o'.events

variable (catalog : Catalog) (file : String) {k : Nat}

theorem Echoes.add {o o' : Outline} (h : o.Echoes k o') (i n : Nat) (e : Entry) :
    (o.add i e).Echoes k (o'.add (i + k) (e.lowered k n)) := by
  have hevents := ((echoes_line k i).append (e.echoes_events k n)).append h.events
  cases e with
  | element header => exact ⟨.cons ⟨rfl, rfl, rfl⟩ h.headers, h.constants, hevents⟩
  | constant c => exact ⟨h.headers, congrArg (c :: ·) h.constants, hevents⟩
  | rejected p => exact ⟨h.headers, h.constants, hevents⟩
  | passed => exact ⟨h.headers, h.constants, hevents⟩

theorem echoes_atEnd (depth count : Nat) (h : depth = 0 ∨ 0 < count) :
    (atEnd depth count).Echoes k (atEnd depth (count + k)) := by
  unfold atEnd
  by_cases hd : depth = 0
  · rw [if_pos hd, if_pos hd]
    exact ⟨.nil, rfl, echoes_nil k⟩
  · have hlast : count + k - 1 = count - 1 + k := by omega
    rw [if_neg hd, if_neg hd, hlast]
    exact ⟨.nil, rfl, (echoes_line k (count - 1)).append (echoes_problem k rfl rfl)⟩

/-- an outline from a place `k` lines further down, where the lines have the same tokens -/
theorem ofLinesFrom_echoes (depth i : Nat) (h0 : depth = 0 ∨ 0 < i) {lines lines' : List Line}
    (ht : SameTokens lines lines') :
    (ofLinesFrom catalog file depth i lines).Echoes k
      (ofLinesFrom catalog file depth (i + k) lines') := by
  induction lines generalizing depth i lines' with
  | nil =>
    obtain rfl := SameTokens.nil_iff.mp ht
    exact echoes_atEnd depth i h0
  | cons line lines ih =>
    obtain ⟨line', lines', rfl, hline, hlines⟩ := SameTokens.cons_iff.mp ht
    have hdepth : depthAfter depth line' = depthAfter depth line := by
      rw [depthAfter, depthAfter, Line.first_congr hline, Line.opens_congr hline,
        Line.closes_congr hline]
    rw [ofLinesFrom_cons, ofLinesFrom_cons, hdepth, Entry.ofLine_of_tokens hline,
      Nat.add_right_comm]
    exact (ih (depthAfter depth line) (i + 1) (Or.inr (Nat.succ_pos i)) hlines).add i _ _

/-! ### the lines of an outline -/

theorem looksFirst_ofLinesFrom (i : Nat) (lines : List Line) :
    LooksFirst (ofLinesFrom catalog file 0 i lines).events := by
  cases lines with
  | nil => exact looksFirst_nil
  | cons line lines => exact looksFirst_line i _

theorem isWithin_ofLinesFrom (depth i : Nat) (h0 : depth = 0 ∨ 0 < i) (lines : List Line) :
    ∀ x ∈ (ofLinesFrom catalog file depth i lines).events, x.IsWithin 0 (i + lines.length) := by
  induction lines generalizing depth i with
  | nil =>
    rw [ofLinesFrom_nil, atEnd]
    split
    · exact fun x hx => absurd hx List.not_mem_nil
    · have hlast : i - 1 < i := by omega
      exact List.forall_mem_cons.mpr ⟨⟨Nat.zero_le _, hlast⟩, List.forall_mem_singleton.mpr trivial⟩
  | cons line lines ih =>
    have hlen : i + (line :: lines).length = i + 1 + lines.length := by
      rw [List.length_cons]
      omega
    rw [ofLinesFrom_cons, hlen]
    refine List.forall_mem_cons.mpr ⟨⟨Nat.zero_le _, by omega⟩, List.forall_mem_append.mpr ⟨?_, ?_⟩⟩
    · cases Entry.ofLine catalog file depth i line with
      | element h => exact List.forall_mem_singleton.mpr trivial
      | constant _ | passed => exact fun x hx => absurd hx List.not_mem_nil
      | rejected p => cases p <;> simp [Entry.events, Event.IsWithin]
    · exact ih _ _ (Or.inr (Nat.succ_pos i))

/-! ### lines that are joined -/

/-- an outline and one of the lines behind it -/
def append (o o' : Outline) : Outline :=
  ⟨o.headers ++ o'.headers, o.constants ++ o'.constants, o.events ++ o'.events⟩

theorem append_add (i : Nat) (e : Entry) (o o' : Outline) :
    (o.append o').add i e = (o.add i e).append o' := by
  have hevents : (.line i :: e.events) ++ (o.events ++ o'.events) =
      (.line i :: e.events) ++ o.events ++ o'.events := (List.append_assoc _ _ _).symm
  cases e <;> exact congrArg (Outline.mk _ _) hevents

/-- with no block open, an outline goes on as if it began -/
theorem ofLinesFrom_append {depth : Nat} {lines : List Line}
    (h : lines.foldl depthAfter depth = 0) (i : Nat) (rest : List Line) :
    ofLinesFrom catalog file depth i (lines ++ rest) =
      (ofLinesFrom catalog file depth i lines).append
        (ofLinesFrom catalog file 0 (i + lines.length) rest) := by
  induction lines generalizing depth i with
  | nil =>
    obtain rfl : depth = 0 := h
    rfl
  | cons line lines ih =>
    have hlen : i + (line :: lines).length = i + 1 + lines.length := by
      rw [List.length_cons]
      omega
    rw [List.cons_append, ofLinesFrom_cons, ofLinesFrom_cons, ih h, append_add, hlen]

end Outline
end Markup
