import Markup.Proofs.Outline.Balance
import Markup.Proofs.Outline.Echo
import Markup.Proofs.Outline.Report

/-!
# Rejected elements

An element declaration that is rejected is passed over with its block: there is one problem, on the
declaration, nothing is found or reported in the block, and the lines behind it are taken as they
would be without it (`Outline.ofLines_rejected`).

In a block an outline looks at braces only.  A balanced block is left where it was entered, so it
adds nothing to the outline of the lines behind it (`Outline.adds_block`).  These lines are further
down then, which an outline shows in the places that it gives, and nowhere else
(`Outline.ofLinesFrom_moved`).

* `Outline.Adds`       an outline with problems that another one does not have, and nothing else;
* `Outline.IsMoved`    the outline of the same lines further down;
* `RejectedElement`    a declaration that is rejected, with a balanced block.
-/

namespace Markup

/-! ## lines further down -/

/-- the header on the same line, `k` places further down -/
def Header.moved (k : Nat) (h : Header) : Header := { h with start := h.start + k }

theorem Header.append_map_moved {n : Nat} {hs hs' : List Header} (h : ∀ g ∈ hs, g.start < n)
    (h' : ∀ g ∈ hs', n ≤ g.start) (k : Nat) : hs ++ hs'.map (moved k) =
      (hs ++ hs').map fun g => if g.start < n then g else g.moved k := by
  have hid : hs.map (fun g => if g.start < n then g else g.moved k) = hs := by
    rw [List.map_congr_left fun g hg => if_pos (h g hg), List.map_id']
  have hmoved : hs'.map (fun g => if g.start < n then g else g.moved k) = hs'.map (moved k) :=
    List.map_congr_left fun g hg => if_neg (Nat.not_lt.mpr (h' g hg))
  rw [List.map_append, hid, hmoved]

namespace Entry

/-- the entry of the same line, `k` places further down -/
def moved (k : Nat) : Entry → Entry
  | element h => element (h.moved k)
  | e => e

variable (k : Nat) (catalog : Catalog) (file : String) (index : Nat) (line : Line)

theorem ofElementLine_moved : ofElementLine catalog file (index + k) line =
    (ofElementLine catalog file index line).moved k := by
  unfold ofElementLine
  simp only
  split
  · rfl
  · split
    · rfl
    · split <;> rfl

theorem ofConstantLine_moved : ofConstantLine line = (ofConstantLine line).moved k := by
  unfold ofConstantLine
  simp only
  split
  · rfl
  · split
    · rfl
    · split
      · rfl
      · cases requireClosed line.number (line.tokens.drop 3) <;> rfl

/-- of an entry only the place of a header depends on the place of the line -/
theorem ofLine_moved (depth : Nat) : ofLine catalog file depth (index + k) line =
    (ofLine catalog file depth index line).moved k := by
  unfold ofLine
  split
  · rfl
  · split
    · exact ofElementLine_moved k catalog file index line
    · split
      · exact ofConstantLine_moved k line
      · split
        · rfl
        · split <;> rfl

end Entry

namespace Outline

/-- the outline `o'` finds and reports what `o` does, `k` places further down -/
structure IsMoved (k : Nat) (o o' : Outline) : Prop where
  headers : o'.headers = o.headers.map (Header.moved k)
  constants : o'.constants = o.constants
  reports : ∀ i, reportsFrom (i + k) o'.events =
    (reportsFrom i o.events).map fun r => (r.1 + k, r.2)

section
variable {k : Nat} {o o' : Outline}

theorem IsMoved.add (h : o.IsMoved k o') (i : Nat) (e : Entry) :
    (o.add i e).IsMoved k (o'.add (i + k) (e.moved k)) := by
  cases e with
  | element header =>
    exact ⟨congrArg (header.moved k :: ·) h.headers, h.constants, fun _ => h.reports i⟩
  | constant c => exact ⟨h.headers, congrArg (c :: ·) h.constants, fun _ => h.reports i⟩
  | passed => exact ⟨h.headers, h.constants, fun _ => h.reports i⟩
  | rejected p =>
    refine ⟨h.headers, h.constants, fun _ => ?_⟩
    cases p <;> exact congrArg (_ :: ·) (h.reports i)

theorem isMoved_atEnd (depth count : Nat) (h : depth = 0 ∨ 0 < count) :
    (atEnd depth count).IsMoved k (atEnd depth (count + k)) := by
  unfold atEnd
  by_cases hd : depth = 0
  · rw [if_pos hd, if_pos hd]
    exact ⟨rfl, rfl, fun _ => rfl⟩
  · have hlast : count + k - 1 = count - 1 + k := by omega
    rw [if_neg hd, if_neg hd, hlast]
    exact ⟨rfl, rfl, fun _ => rfl⟩

variable (catalog : Catalog) (file : String)

theorem ofLinesFrom_moved (depth i : Nat) (h0 : depth = 0 ∨ 0 < i) (lines : List Line) :
    (ofLinesFrom catalog file depth i lines).IsMoved k
      (ofLinesFrom catalog file depth (i + k) lines) := by
  induction lines generalizing depth i with
  | nil => exact isMoved_atEnd depth i h0
  | cons line lines ih =>
    rw [ofLinesFrom_cons, ofLinesFrom_cons, Entry.ofLine_moved, Nat.add_right_comm]
    exact (ih (depthAfter depth line) (i + 1) (Or.inr (Nat.succ_pos i))).add i _

end

/-! ## blocks that are passed over -/

/-- the outline `o'` has these problems and then those of `o`, and finds what `o` finds -/
structure Adds (reports : List (Nat × Problem)) (o o' : Outline) : Prop where
  headers : o'.headers = o.headers
  constants : o'.constants = o.constants
  reports : ∀ i j, reportsFrom i o'.events = reports ++ reportsFrom j o.events

section
variable {o o' : Outline} {rs : List (Nat × Problem)}

theorem adds_nil (h : LooksFirst o.events) : o.Adds [] o := ⟨rfl, rfl, h⟩

theorem Adds.passed (h : o.Adds rs o') (i : Nat) : o.Adds rs (o'.add i .passed) :=
  ⟨h.headers, h.constants, fun _ => h.reports i⟩

theorem Adds.rejected (h : o.Adds rs o') (i : Nat) (p : Problem) :
    o.Adds ((i, p) :: rs) (o'.add i (.rejected p)) := by
  refine ⟨h.headers, h.constants, fun _ j => ?_⟩
  cases p <;> exact congrArg (_ :: ·) (h.reports i j)

variable (catalog : Catalog) (file : String) {close : Line}

/-- a block adds nothing, up to the closer that brings its braces into balance -/
theorem adds_block (hc : close.tokens = [blockClose]) (rest : List Line) {body : List Line}
    (hl : ∀ line ∈ body, line.IsScanned) {depth : Nat} (hb : BalancedFrom depth body) (i : Nat) :
    (ofLinesFrom catalog file 0 (i + body.length + 1) rest).Adds []
      (ofLinesFrom catalog file (depth + 1) i (body ++ close :: rest)) := by
  induction body generalizing depth i with
  | nil =>
    obtain rfl : depth = 0 := balancedFrom_nil.mp hb
    have hclose : depthAfter 1 close = 0 := by
      rw [depthAfter_succ, Line.opens, Line.closes, Line.contains, Line.contains, hc]
      rfl
    rw [List.nil_append, ofLinesFrom_cons, hclose]
    exact (adds_nil (looksFirst_ofLinesFrom catalog file (i + 1) rest)).passed i
  | cons line body ih =>
    obtain ⟨hline, hbody⟩ := List.forall_mem_cons.mp hl
    have hlen : i + (line :: body).length + 1 = i + 1 + body.length + 1 := by
      rw [List.length_cons]
      omega
    obtain ⟨d, hd, hb⟩ : ∃ d, depthAfter (depth + 1) line = d + 1 ∧ BalancedFrom d body := by
      rw [depthAfter_succ]
      by_cases ho : line.opens = true
      · rw [balancedFrom_cons_of_opens hline ho] at hb
        exact ⟨depth + 1, if_pos ho, hb⟩
      · rw [if_neg ho]
        by_cases hcl : line.closes = true
        · rw [balancedFrom_cons_of_closes hline hcl] at hb
          have hd : depth - 1 + 1 = depth := Nat.sub_add_cancel (Nat.pos_of_ne_zero hb.1)
          exact ⟨depth - 1, (if_pos hcl).trans hd.symm, hb.2⟩
        · rw [balancedFrom_cons_of_neither hline ho hcl] at hb
          exact ⟨depth, if_neg hcl, hb⟩
    rw [hlen, List.cons_append, ofLinesFrom_cons, hd]
    exact (ih hbody hb (i + 1)).passed i

end
end Outline

/-! ## rejected elements -/

/-- the declaration of an element that is rejected for `p`, the lines of its block, and the closer of
the block -/
structure RejectedElement (catalog : Catalog) (file : String) (head : Line) (body : List Line)
    (close : Line) (p : Problem) : Prop where
  first : head.first = "element"
  opener : head.endsOpen = true
  rejects : Entry.ofElementLine catalog file 0 head = .rejected p
  scanned : ∀ line ∈ body, line.IsScanned
  balanced : Balanced body
  closer : close.tokens = [blockClose]

theorem Entry.cases_of_ofElementLine {catalog : Catalog} {file : String} {i : Nat} {line : Line}
    {p : Problem} (h : ofElementLine catalog file i line = rejected p) : p = .elementWithoutName ∨
      p = .reservedName (line.token 1) ∨ p = .elementWithoutBlock (line.token 1) := by
  unfold ofElementLine at h
  simp only at h
  split at h
  · exact Or.inl (Entry.rejected.inj h).symm
  · split at h
    · exact Or.inr (Or.inl (Entry.rejected.inj h).symm)
    · split at h
      · exact Or.inr (Or.inr (Entry.rejected.inj h).symm)
      · exact absurd h (by simp)

/-- a rejected element adds the problem of its declaration -/
theorem RejectedElement.adds {catalog : Catalog} {file : String} {head close : Line}
    {body : List Line} {p : Problem} (h : RejectedElement catalog file head body close p)
    (rest : List Line) (i : Nat) :
    (Outline.ofLinesFrom catalog file 0 (i + (head :: (body ++ [close])).length) rest).Adds [(i, p)]
      (Outline.ofLinesFrom catalog file 0 i (head :: (body ++ [close]) ++ rest)) := by
  have hentry : Entry.ofLine catalog file 0 i head = .rejected p := by
    rw [Entry.ofLine, if_neg (not_not_intro rfl), if_pos h.first, ← Nat.zero_add i,
      Entry.ofElementLine_moved, h.rejects]
    rfl
  have hopens : head.opens = true := by
    rw [Line.opens, Line.contains, List.contains_iff_mem]
    exact List.mem_of_getLast? (beq_iff_eq.mp h.opener)
  have hdepth : depthAfter 0 head = 1 := by
    have hk : ¬((0 : Nat) = 0 ∧ head.first = "const") := by
      rw [h.first]
      decide
    rw [depthAfter, if_neg hk, if_pos hopens]
  have hlen : i + (head :: (body ++ [close])).length = i + 1 + body.length + 1 := by
    rw [List.length_cons, List.length_append, List.length_singleton]
    omega
  have hlines : head :: (body ++ [close]) ++ rest = head :: (body ++ close :: rest) := by
    rw [List.cons_append, List.append_assoc]
    rfl
  have hblock := Outline.adds_block catalog file h.closer rest h.scanned
    (balancedFrom_zero.mpr h.balanced) (i + 1)
  rw [hlines, Outline.ofLinesFrom_cons, hentry, hdepth, hlen]
  exact hblock.rejected i p

namespace Outline

variable (catalog : Catalog) (file : String)

theorem le_of_mem_reports {i : Nat} {lines : List Line} {r : Nat × Problem}
    (hr : r ∈ reportsFrom 0 (ofLinesFrom catalog file 0 i lines).events) :
    i ≤ r.1 ∧ r.1 < i + lines.length := by
  have hlooks := looksFirst_ofLinesFrom catalog file i lines
  constructor
  · have hmoved := (ofLinesFrom_moved (k := i) catalog file 0 0 (Or.inl rfl) lines).reports 0
    rw [Nat.zero_add, hlooks i 0] at hmoved
    rw [hmoved] at hr
    obtain ⟨r', -, rfl⟩ := List.mem_map.mp hr
    exact Nat.le_add_left i r'.1
  · rw [hlooks 0 (r.1 + 1)] at hr
    have hin := reportsFrom_within (isWithin_ofLinesFrom catalog file 0 i (Or.inl rfl) lines) _ r hr
    omega

theorem le_start {i : Nat} {lines : List Line} {h : Header}
    (hm : h ∈ (ofLinesFrom catalog file 0 i lines).headers) :
    i ≤ h.start ∧ h.start < i + lines.length := by
  obtain ⟨n, hn, hs, -, -⟩ := header_line catalog file hm
  omega

/-- an element that is rejected is one problem, whatever its block holds, and the lines around it are
taken as without it: those behind it are as many places further down as it has lines -/
theorem ofLines_rejected {head close : Line} {body : List Line} {p : Problem}
    (h : RejectedElement catalog file head body close p) :
    let block := head :: (body ++ [close])
    (p = .elementWithoutName ∨ p = .reservedName (head.token 1) ∨
        p = .elementWithoutBlock (head.token 1)) ∧
      p.severity = .error ∧
      ((ofLines catalog file block).headers = [] ∧ (ofLines catalog file block).constants = [] ∧
        reportsFrom 0 (ofLines catalog file block).events = [(0, p)]) ∧
      ∀ before after : List Line, before.foldl depthAfter 0 = 0 →
        let n := before.length
        let m := block.length
        let o := ofLines catalog file (before ++ after)
        let o' := ofLines catalog file (before ++ (block ++ after))
        o'.headers = o.headers.map (fun h => if h.start < n then h else h.moved m) ∧
          o'.constants = o.constants ∧
          ∃ xs ys, reportsFrom 0 o.events = xs ++ ys ∧
            (∀ r ∈ xs, r.1 < n) ∧ (∀ r ∈ ys, n ≤ r.1) ∧
            reportsFrom 0 o'.events = xs ++ (n, p) :: ys.map fun r => (r.1 + m, r.2) := by
  intro block
  have hcases := Entry.cases_of_ofElementLine h.rejects
  refine ⟨hcases, ?_, ?_, fun before after h0 => ?_⟩
  · rcases hcases with rfl | rfl | rfl <;> rfl
  · have hadd := h.adds [] 0
    rw [List.append_nil] at hadd
    exact ⟨hadd.headers, hadd.constants, hadd.reports 0 0⟩
  · intro n m o o'
    have ho : o = (ofLinesFrom catalog file 0 0 before).append
        (ofLinesFrom catalog file 0 n after) := by
      show ofLinesFrom catalog file 0 0 (before ++ after) = _
      rw [ofLinesFrom_append catalog file h0, Nat.zero_add]
    have ho' : o' = (ofLinesFrom catalog file 0 0 before).append
        (ofLinesFrom catalog file 0 n (block ++ after)) := by
      show ofLinesFrom catalog file 0 0 (before ++ (block ++ after)) = _
      rw [ofLinesFrom_append catalog file h0, Nat.zero_add]
    have hadd : (ofLinesFrom catalog file 0 (n + m) after).Adds [(n, p)]
        (ofLinesFrom catalog file 0 n (block ++ after)) := h.adds after n
    have hmoved : (ofLinesFrom catalog file 0 n after).IsMoved m
        (ofLinesFrom catalog file 0 (n + m) after) :=
      ofLinesFrom_moved catalog file 0 n (Or.inl rfl) after
    rw [ho, ho']
    have hn : 0 + before.length = n := Nat.zero_add n
    refine ⟨?_, congrArg (_ ++ ·) (hadd.constants.trans hmoved.constants),
      reportsFrom 0 (ofLinesFrom catalog file 0 0 before).events,
      reportsFrom 0 (ofLinesFrom catalog file 0 n after).events, ?_,
      fun r hr => hn ▸ (le_of_mem_reports catalog file hr).2,
      fun r hr => (le_of_mem_reports catalog file hr).1, ?_⟩
    · show _ ++ (ofLinesFrom catalog file 0 n (block ++ after)).headers = _
      rw [hadd.headers, hmoved.headers]
      exact Header.append_map_moved (fun h hh => hn ▸ (le_start catalog file hh).2)
        (fun h hh => (le_start catalog file hh).1) m
    · show reportsFrom 0 (_ ++ _) = _
      rw [reportsFrom_append, looksFirst_ofLinesFrom catalog file n after _ 0]
    · show reportsFrom 0 (_ ++ _) = _
      rw [reportsFrom_append, hadd.reports _ (0 + m), hmoved.reports]
      rfl

/-- an element under a reserved name, between two others; its block holds an element, a constant with
an open bracket, and a line that is no statement -/
theorem ofLines_rejected_menu :
    let head : Line := ⟨["element", "UIText", "\x7b"], 3⟩
    let body := Line.ofSource "element B \x7b const c = (; \x7d x = y \x7b \x7d z"
    let block := head :: (body ++ [⟨["\x7d"], 4⟩])
    let before := Line.ofSource "element A \x7b \x7d v"
    let after := Line.ofSource "w; element C \x7b"
    let o := ofLines .standard "m.kml" (before ++ after)
    let o' := ofLines .standard "m.kml" (before ++ (block ++ after))
    Entry.ofElementLine .standard "m.kml" 0 head = .rejected (.reservedName "UIText") ∧
      Balanced body ∧ before.foldl depthAfter 0 = 0 ∧
      reportsFrom 0 o.events = [(2, .unexpected "v"), (3, .unexpected "w"), (4, .unclosedBlock)] ∧
      (reportsFrom 0 o'.events).length = 4 ∧
      (3, .reservedName "UIText") ∈ reportsFrom 0 o'.events ∧
      o'.headers = [⟨"A", "m.kml", 0, 1⟩, ⟨"C", "m.kml", 12, 1⟩] := by
  intro head body block before after o o'
  have hp : Entry.ofElementLine .standard "m.kml" 0 head = .rejected (.reservedName "UIText") := by
    decide +kernel
  have hb : Balanced body := by decide +kernel
  have h0 : before.foldl depthAfter 0 = 0 := by decide +kernel
  have hn : before.length = 3 := by decide +kernel
  have hm : block.length = 8 := by decide +kernel
  have hfound : o.headers = [⟨"A", "m.kml", 0, 1⟩, ⟨"C", "m.kml", 4, 1⟩] := by decide +kernel
  have hreports : reportsFrom 0 o.events =
      [(2, .unexpected "v"), (3, .unexpected "w"), (4, .unclosedBlock)] := by decide +kernel
  have hrejected : RejectedElement .standard "m.kml" head body ⟨["\x7d"], 4⟩
      (.reservedName "UIText") :=
    ⟨rfl, rfl, hp, fun _ hl => Line.isScanned_of_mem hl, hb, rfl⟩
  obtain ⟨-, -, -, h⟩ := ofLines_rejected .standard "m.kml" hrejected
  obtain ⟨hheaders, -, xs, ys, hxy, -, -, hxy'⟩ := h before after h0
  refine ⟨hp, hb, h0, hreports, ?_, ?_, ?_⟩
  · have hlen := congrArg List.length (hxy.symm.trans hreports)
    rw [List.length_append] at hlen
    rw [hxy', List.length_append, List.length_cons, List.length_map, ← Nat.add_assoc, hlen]
    rfl
  · rw [hxy', hn]
    exact List.mem_append_right xs List.mem_cons_self
  · rw [hheaders, hfound, hn]
    show [_, Header.moved block.length _] = _
    rw [hm]
    rfl

end Outline
end Markup
