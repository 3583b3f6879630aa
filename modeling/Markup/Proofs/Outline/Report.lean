import Markup.Proofs.Block.Report
import Markup.Proofs.Outline.Places

/-!
# What is told of a source

An outline goes over the lines of a source once and looks at the last one again if a block is open
there (`Outline.events_ofLines`).  So it tells of the lines outside all blocks in order, and of no line
twice (`Outline.tells_found`), apart from the block that is open at the end.  The elements tell of the
lines of their blocks, also in order, those of a header behind those of the headers before it
(`Outline.tells_built`).
-/

namespace Markup

/-! ## entries -/

namespace Entry

variable {catalog : Catalog} {file : String} {depth i : Nat} {line : Line}

theorem reportsFrom_rejected (i : Nat) (p : Problem) :
    reportsFrom i (rejected p).events = [(i, p)] := by
  cases p <;> rfl

theorem depth_of_rejected {p : Problem} (h : ofLine catalog file depth i line = rejected p) :
    depth = 0 := by
  have hr := reads_ofLine catalog file i line depth
  rw [h] at hr
  cases hr with
  | rejected hd _ => exact hd

theorem ofElementLine_ne (catalog : Catalog) (file : String) (i : Nat) (line : Line) (b : Unclosed) :
    ofElementLine catalog file i line ≠ rejected (.unclosedBracket b) := by
  unfold ofElementLine
  simp only
  split
  · simp
  · split
    · simp
    · split <;> simp

theorem leavesOpen_of_constant {b : Unclosed}
    (h : ofConstantLine line = rejected (.unclosedBracket b)) : line.LeavesOpen 2 b := by
  unfold ofConstantLine at h
  simp only at h
  split at h
  · exact absurd h (by simp)
  · split at h
    · exact absurd h (by simp)
    · split at h
      · exact absurd h (by simp)
      · next hs =>
        cases hc : requireClosed line.number (line.tokens.drop 3) with
        | error b' =>
          rw [hc] at h
          obtain rfl : b' = b := Problem.unclosedBracket.inj (Entry.rejected.inj h)
          exact ⟨not_not.mp hs, hc⟩
        | ok u =>
          rw [hc] at h
          exact absurd h (by simp)

/-- outside all blocks only a constant can be left open -/
theorem leavesOpen_of_ofLine {b : Unclosed}
    (h : ofLine catalog file depth i line = rejected (.unclosedBracket b)) :
    line.first = "const" ∧ line.LeavesOpen 2 b := by
  unfold ofLine at h
  split at h
  · exact absurd h (by simp)
  · split at h
    · exact absurd h (ofElementLine_ne catalog file i line b)
    · split at h
      · next hc => exact ⟨hc, leavesOpen_of_constant h⟩
      · split at h
        · exact absurd h (by simp)
        · split at h <;> exact absurd h (by simp)

end Entry

/-! ## the outline -/

namespace Outline

variable (catalog : Catalog) (file : String) (lines : List Line)

def eventsAt (i : Nat) : List Event := .line i :: (entryAt catalog file lines i).events

theorem events_ofLinesFrom (k : Nat) (hk : k ≤ lines.length) :
    (ofLinesFrom catalog file (depthBefore lines k) k (lines.drop k)).events =
      (List.range' k (lines.length - k)).flatMap (eventsAt catalog file lines) ++
        (atEnd (depthBefore lines lines.length) lines.length).events := by
  by_cases hlt : k < lines.length
  · have hline : lines[k]? = some lines[k] := List.getElem?_eq_getElem hlt
    have hlen : lines.length - k = lines.length - (k + 1) + 1 := by omega
    have ih := events_ofLinesFrom (k + 1) hlt
    rw [depthBefore_succ hline] at ih
    rw [List.drop_eq_getElem_cons hlt, ofLinesFrom_cons, hlen, List.range'_succ, List.flatMap_cons,
      List.append_assoc, ← ih, ← entryAt_eq catalog file lines hline]
    rfl
  · obtain rfl : k = lines.length := by omega
    rw [List.drop_length, Nat.sub_self]
    rfl
termination_by lines.length - k

/-- the problems on the lines of an outline, and behind them the block that is open at the end -/
theorem events_ofLines : (ofLines catalog file lines).events =
    (List.range lines.length).flatMap (eventsAt catalog file lines) ++
      (atEnd (depthBefore lines lines.length) lines.length).events := by
  have h := events_ofLinesFrom catalog file lines 0 (Nat.zero_le _)
  rw [List.drop_zero, Nat.sub_zero, ← List.range_eq_range'] at h
  exact h

/-- the entry of the line at place `i` is rejected -/
def RejectsAt (i : Nat) (p : Problem) : Prop := entryAt catalog file lines i = .rejected p

theorem tells_eventsAt (i : Nat) :
    Tells (RejectsAt catalog file lines) i (i + 1) (eventsAt catalog file lines i) := by
  have hnil := tells_nil (RejectsAt catalog file lines)
  unfold eventsAt
  cases he : entryAt catalog file lines i with
  | element h => exact ((hnil i (i + 1)).note _).line i
  | constant _ | passed => exact (hnil i (i + 1)).line i
  | rejected p =>
    refine ((hnil (i + 1) (i + 1)).problem (Nat.lt_succ_self i) he).congr fun j => ?_
    exact Entry.reportsFrom_rejected i p

theorem tells_found : Tells (RejectsAt catalog file lines) 0 lines.length
    ((List.range lines.length).flatMap (eventsAt catalog file lines)) := by
  refine tells_flatMap id Nat.succ (fun i hi => ?_) ?_
  · exact ⟨Nat.zero_le _, Nat.le_succ i, List.mem_range.mp hi, tells_eventsAt catalog file lines i⟩
  · exact List.pairwise_lt_range.imp fun h => h

theorem reportsFrom_atEnd (i depth count : Nat) : reportsFrom i (atEnd depth count).events =
    if depth = 0 then [] else [(count - 1, .unclosedBlock)] := by
  unfold atEnd
  split <;> rfl

/-! ## the elements -/

variable {lines}

/-- something is wrong with a statement in a block -/
def FailsInBlock (lines : List Line) (i : Nat) (p : Problem) : Prop :=
  FailsAt lines i p ∧ depthBefore lines i ≠ 0

theorem tells_build (hl : ∀ line ∈ lines, line.IsScanned) {h : Header}
    (hm : h ∈ (ofLines catalog file lines).headers) :
    Tells (FailsInBlock lines) (h.start + 1) (blockEnd lines h.start + 1)
      (h.build catalog lines).told := by
  obtain ⟨hs, h0, h1⟩ := depthBefore_of_mem_headers catalog file hm
  have hend := blockEnd_eq hl hs h1
  refine ((h.tells_build catalog hl).mono (Nat.le_refl _) (by omega)).imp fun i p hi hlt hp => ?_
  exact ⟨hp, depthBefore_ne_zero hl hs h0 h1 (by omega) (by omega)⟩

theorem tells_built (hl : ∀ line ∈ lines, line.IsScanned) {g : Header → List Event}
    (hg : ∀ h i, reportsFrom i (g h) = reportsFrom i (h.build catalog lines).told) :
    Tells (FailsInBlock lines) 0 lines.length
      ((ofLines catalog file lines).headers.flatMap g) := by
  refine tells_flatMap (fun h => h.start + 1) (fun h => blockEnd lines h.start + 1)
    (fun h hm => ?_) ?_
  · obtain ⟨hs, _, h1⟩ := depthBefore_of_mem_headers catalog file hm
    have hend := blockEnd_eq hl hs h1
    have hle := blockLength_le 0 (lines.drop (h.start + 1))
    rw [List.length_drop] at hle
    refine ⟨Nat.zero_le _, by omega, by omega, ?_⟩
    exact (tells_build catalog file hl hm).congr (hg h)
  · -- a header stands outside all blocks, so behind the block of any header before it
    refine (pairwise_start catalog file 0 0 lines).imp_of_mem fun {h h'} hm hm' hlt => ?_
    obtain ⟨hs', h0', _⟩ := depthBefore_of_mem_headers catalog file hm'
    obtain ⟨_, _, h1⟩ := depthBefore_of_mem_headers catalog file hm
    have hend := blockEnd_lt h1 hlt hs' h0'
    omega

end Outline
end Markup
