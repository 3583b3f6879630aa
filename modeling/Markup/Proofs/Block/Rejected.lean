import Markup.Proofs.Block.Detached
import Markup.Proofs.Block.Echo
import Markup.Proofs.Block.Standing
import Markup.Proofs.Outline.Balance

/-!
# Rejected statements

A statement that opens a block and is rejected is passed over with the block, wherever it stands:
taken out of the lines together, they take one problem along and nothing else
(`Header.build_rejected`).

Every reading that comes to the lines of the block passes over them.  The problem is reported by the
reading of the element that the statement stands in, and only by this one: the readings around it are
in a block that they pass over.

* `Traced.Inserts`      a reading with a problem that another one does not have, and nothing else;
* `PutsIn`              lines that add a problem before a statement, and nothing in an open block;
* `RejectedStatement`    a statement that is rejected, with a balanced block.
-/

namespace Markup

/-! ## one problem more -/

/-- the same remark, `m` places further down if it is made at place `n` or behind it -/
def Remark.moved (n m : Nat) (r : Remark) : Remark := if r.index < n then r else r.lowered m

namespace Traced

variable {α β : Type} {n m : Nat} {p : Problem}

/-- The reading `s` has lines at place `n` that `r` does not have, `m` of them.  Both come to the same
result and make the same remarks, but for the problem that `s` reports if it comes to these lines
before a statement. -/
structure Inserts (n m : Nat) (p : Problem) (st : Standing) (r s : Traced α) : Prop where
  result : s.result = r.result
  remarks : ∀ i j, ∃ xs ys, remarksFrom i r.events = xs ++ ys ∧
    remarksFrom j s.events = xs.map (Remark.moved n m) ++
      ((st.reports p).map (Remark.ofProblem n) ++ ys.map (Remark.moved n m))
  closed : st = .closed → ∃ a, r.result = .ok a
  abandoned : st = .abandoned → ∃ b, r.result = .error b

section
variable {st st' : Standing} {r s : Traced α}

theorem inserts_pure (a : α) : (pure a).Inserts n m p .closed (pure a) :=
  ⟨rfl, fun _ _ => ⟨[], [], rfl, rfl⟩, fun _ => ⟨a, rfl⟩, nofun⟩

theorem inserts_abandon (b : Unclosed) :
    (abandon b : Traced α).Inserts n m p .abandoned (abandon b) :=
  ⟨rfl, fun _ _ => ⟨[], [], rfl, rfl⟩, nofun, fun _ => ⟨b, rfl⟩⟩

theorem Inserts.line (h : r.Inserts n m p st s) (i : Nat) :
    (r.after [.line i]).Inserts n m p st (s.after [.line i]) :=
  ⟨h.result, fun _ _ => h.remarks i i, h.closed, h.abandoned⟩

theorem Inserts.problem (h : r.Inserts n m p st s) {i : Nat} (hi : i < n) (q : Problem) :
    ((r.after [.problem q]).after [.line i]).Inserts n m p st
      ((s.after [.problem q]).after [.line i]) := by
  refine ⟨h.result, fun _ _ => ?_, h.closed, h.abandoned⟩
  obtain ⟨xs, ys, hr, hs⟩ := h.remarks i i
  have hq : (Remark.ofProblem i q).moved n m = Remark.ofProblem i q := if_pos hi
  refine ⟨Remark.ofProblem i q :: xs, ys, congrArg (_ :: ·) hr, ?_⟩
  rw [List.map_cons, hq]
  exact congrArg (_ :: ·) hs

/-- while a block is open, the result and the remarks are all that is asked for -/
theorem inserts_of_isOpen (ho : st.isOpen = true) (hresult : s.result = r.result)
    (hremarks : ∀ i j, ∃ xs ys, remarksFrom i r.events = xs ++ ys ∧
      remarksFrom j s.events = xs.map (Remark.moved n m) ++
        ((st.reports p).map (Remark.ofProblem n) ++ ys.map (Remark.moved n m))) :
    r.Inserts n m p st s := by
  refine ⟨hresult, hremarks, fun hc => ?_, fun hc => ?_⟩
  · rw [hc] at ho
    exact absurd ho Bool.false_ne_true
  · rw [hc] at ho
    exact absurd ho Bool.false_ne_true

section
variable {f g : Traced β}

/-- the remarks of two readings, one behind the other -/
theorem Inserts.remarks_after (h : r.Inserts n m p st s) (hf : f.Inserts n m p st' g) (i j : Nat) :
    ∃ xs ys xs' ys', remarksFrom i (f.after r.events).events = xs ++ ys ++ (xs' ++ ys') ∧
      remarksFrom j (g.after s.events).events = xs.map (Remark.moved n m) ++
          ((st.reports p).map (Remark.ofProblem n) ++ ys.map (Remark.moved n m)) ++
        (xs'.map (Remark.moved n m) ++
          ((st'.reports p).map (Remark.ofProblem n) ++ ys'.map (Remark.moved n m))) := by
  obtain ⟨xs, ys, hr, hs⟩ := h.remarks i j
  obtain ⟨xs', ys', hr', hs'⟩ := hf.remarks (lineAfter i r.events) (lineAfter j s.events)
  refine ⟨xs, ys, xs', ys', ?_, ?_⟩
  · rw [← hr, ← hr']
    exact remarksFrom_append i r.events f.events
  · rw [← hs, ← hs']
    exact remarksFrom_append j s.events g.events

/-- a reading that comes to the lines in a block that is open, and the reading behind it, which passes
over them -/
theorem Inserts.after_open (h : r.Inserts n m p st s) (ho : st.isOpen = true)
    (hf : f.Inserts n m p .passing g) :
    (f.after r.events).Inserts n m p st (g.after s.events) := by
  refine inserts_of_isOpen ho hf.result fun i j => ?_
  obtain ⟨xs, ys, xs', ys', hr, hs⟩ := h.remarks_after hf i j
  refine ⟨xs, ys ++ (xs' ++ ys'), ?_, ?_⟩
  · rw [hr, List.append_assoc]
  · rw [hs]
    simp [Standing.reports]

/-- a reading that ends in front of the lines, and the reading behind it -/
theorem Inserts.after_closed (h : r.Inserts n m p .closed s) (hf : f.Inserts n m p st' g) :
    (f.after r.events).Inserts n m p st' (g.after s.events) := by
  refine ⟨hf.result, fun i j => ?_, hf.closed, hf.abandoned⟩
  obtain ⟨xs, ys, xs', ys', hr, hs⟩ := h.remarks_after hf i j
  refine ⟨xs ++ (ys ++ xs'), ys', ?_, ?_⟩
  · rw [hr]
    simp
  · rw [hs]
    simp [Standing.reports]

end

/-- the reading of a child, and then that of the block around it, which passes over the lines while
the child is open -/
theorem Inserts.bind (h : r.Inserts n m p st s) {f g : α → Traced β}
    (hf : st ≠ .abandoned → ∀ a, (f a).Inserts n m p st' (g a))
    (hp : st.isOpen = true → st' = .passing) :
    (r.bind f).Inserts n m p (st.orElse st') (s.bind g) := by
  have hresult := h.result
  cases hr : r.result with
  | ok a =>
    have ha : st ≠ .abandoned := by
      intro ha
      obtain ⟨b, hb⟩ := h.abandoned ha
      cases hr.symm.trans hb
    rw [hr] at hresult
    have hrb : r.bind f = (f a).after r.events := by rw [Traced.bind, hr]
    have hsb : s.bind g = (g a).after s.events := by rw [Traced.bind, hresult]
    have hfa := hf ha a
    rw [hrb, hsb]
    cases st with
    | closed => exact h.after_closed hfa
    | abandoned => exact absurd rfl ha
    | _ =>
      obtain rfl := hp rfl
      exact h.after_open rfl hfa
  | error b =>
    rw [hr] at hresult
    have hrb : r.bind f = ⟨r.events, .error b⟩ := by rw [Traced.bind, hr]
    have hsb : s.bind g = ⟨s.events, .error b⟩ := by rw [Traced.bind, hresult]
    have hst : st ≠ .closed := by
      rintro rfl
      obtain ⟨a, ha⟩ := h.closed rfl
      cases hr.symm.trans ha
    have hst' : st.orElse st' = st := by cases st <;> first | rfl | exact absurd rfl hst
    rw [hrb, hsb, hst']
    exact ⟨rfl, h.remarks, fun hc => absurd hc hst, fun _ => ⟨b, rfl⟩⟩

end
end Traced

/-! ## the same lines in front -/

/-- The lines `ls'` are the lines `ls` at place `n` with a rejected statement and its block, `m` lines,
in front of them: so they are read, with a problem if a block comes to them before a statement. -/
structure PutsIn (catalog : Catalog) (n m : Nat) (p : Problem) (rejects : Bool → Prop)
    (ls ls' : List Line) : Prop where
  statement : ∀ isRoot, rejects isRoot → ∀ e detached,
    (readBlock catalog isRoot e 0 detached n ls).Inserts n m p (.statement isRoot)
      (readBlock catalog isRoot e 0 detached n ls')
  passing : ∀ isRoot e depth detached,
    (readBlock catalog isRoot e (depth + 1) detached n ls).Inserts n m p .passing
      (readBlock catalog isRoot e (depth + 1) detached n ls')
  detached : ∀ c, readChild catalog c true n ls = .pure c ∧ readChild catalog c true n ls' = .pure c

section
variable {catalog : Catalog} {n m : Nat} {p : Problem} {rejects : Bool → Prop} {ls ls' : List Line}

theorem PutsIn.readChild (h : PutsIn catalog n m p rejects ls ls') {c : Element} {before : List Line}
    (ih : ∀ k i, i + (before.drop k).length = n →
      (∀ r, standing false 0 false (before.drop k) = .statement r → rejects r) →
      (readBlock catalog false c 0 false i (before.drop k ++ ls)).Inserts n m p
        (standing false 0 false (before.drop k))
        (readBlock catalog false c 0 false i (before.drop k ++ ls')))
    (detached : Bool) {i : Nat} (hi : i + before.length = n)
    (hs : ∀ r, standingInChild detached before = .statement r → rejects r) :
    (readChild catalog c detached i (before ++ ls)).Inserts n m p (standingInChild detached before)
      (Markup.readChild catalog c detached i (before ++ ls')) := by
  cases detached with
  | false => exact ih 0 i hi hs
  | true =>
    cases before with
    | nil =>
      obtain rfl : i = n := hi
      rw [List.nil_append, List.nil_append, (h.detached c).1, (h.detached c).2]
      exact Traced.inserts_pure c
    | cons opener body =>
      unfold Markup.readChild
      unfold standingInChild at hs ⊢
      simp only [List.cons_append, if_true] at hs ⊢
      by_cases ho : opener.isLoneOpen = true
      · rw [if_pos ho] at hs ⊢
        rw [if_pos ho, if_pos ho]
        exact ih 1 (i + 1) (by rw [← hi, List.length_cons, List.drop_succ_cons, List.drop_zero]; omega) hs
      · rw [if_neg ho, if_neg ho, if_neg ho]
        exact Traced.inserts_pure c

/-- lines that are put in behind `before` -/
theorem PutsIn.readBlock (h : PutsIn catalog n m p rejects ls ls') (isRoot : Bool) (e : Element)
    (depth : Nat) (detached : Bool) {i : Nat} {before : List Line} (hi : i + before.length = n)
    (hs : ∀ r, standing isRoot depth detached before = .statement r → rejects r) :
    (readBlock catalog isRoot e depth detached i (before ++ ls)).Inserts n m p
      (standing isRoot depth detached before)
      (Markup.readBlock catalog isRoot e depth detached i (before ++ ls')) := by
  match before with
  | [] =>
    obtain rfl : i = n := hi
    cases depth with
    | zero => exact h.statement isRoot (hs isRoot rfl) e detached
    | succ depth => exact h.passing isRoot e depth detached
  | line :: lines =>
    rw [List.length_cons] at hi
    have hnext : i + 1 + lines.length = n := by omega
    have hin : i < n := by omega
    -- for the child, and for the block around it, with `k` lines passed over in front
    have ih : ∀ isRoot e depth detached k i, i + (lines.drop k).length = n →
        (∀ r, standing isRoot depth detached (lines.drop k) = .statement r → rejects r) →
        (Markup.readBlock catalog isRoot e depth detached i (lines.drop k ++ ls)).Inserts n m p
          (standing isRoot depth detached (lines.drop k))
          (Markup.readBlock catalog isRoot e depth detached i (lines.drop k ++ ls')) :=
      fun isRoot e depth detached k i hi hs => h.readBlock isRoot e depth detached hi hs
    rw [List.cons_append, List.cons_append]
    cases depth with
    | succ depth =>
      by_cases hc : line.first = blockClose
      · rw [standing_succ_close lines hc] at hs ⊢
        rw [readBlock_succ_close hc, readBlock_succ_close hc]
        exact (ih isRoot e depth detached 0 (i + 1) hnext hs).line i
      · rw [standing_succ_cons lines hc] at hs ⊢
        rw [readBlock_succ_cons hc, readBlock_succ_cons hc]
        exact (ih isRoot e _ detached 0 (i + 1) hnext hs).line i
    | zero =>
      by_cases hc : line.first = blockClose
      · rw [standing_zero_close lines hc, readBlock_close hc, readBlock_close hc]
        exact (Traced.inserts_pure e).line i
      · rw [Markup.readBlock, Markup.readBlock, if_neg hc, if_neg hc, if_neg (not_not_intro rfl),
          if_neg (not_not_intro rfl)]
        by_cases hd : detached = true ∧ line.isLoneOpen = true
        · rw [standing_opener lines hd] at hs ⊢
          rw [if_pos hd, if_pos hd]
          exact (ih isRoot e 1 false 0 (i + 1) hnext hs).line i
        · rw [standing_statement lines hc hd] at hs ⊢
          rw [if_neg hd, if_neg hd]
          cases hst : Statement.ofLine isRoot line with
          | property name value =>
            rw [hst] at hs
            exact (ih isRoot _ _ false 0 (i + 1) hnext hs).line i
          | declareVariable name value =>
            rw [hst] at hs
            exact (ih isRoot _ _ false 0 (i + 1) hnext hs).line i
          | rejected problem =>
            rw [hst] at hs
            exact (ih isRoot e _ false 0 (i + 1) hnext hs).problem hin problem
          | unclosed bracket => exact (Traced.inserts_abandon bracket).line i
          | child typeName name? detached =>
            rw [hst] at hs
            -- both read what is put in, but the block around an open child passes over it
            have hchild : ∀ r, standingInChild detached lines = .statement r → rejects r := by
              intro r hr
              refine hs r ?_
              rw [standingBehind, hr]
              rfl
            have haround : standingInChild detached lines ≠ .abandoned → ∀ r,
                standing isRoot (depthAfterStatement line) detached lines = .statement r →
                  rejects r :=
              fun ha r hr => hs r (standingBehind_of_around hst ha hr)
            refine (Traced.Inserts.bind ?_ (fun ha c => ?_) (standing_around_child hst)).line i
            · exact h.readChild (fun k i hi hs => ih false _ 0 false k i hi hs) detached hnext hchild
            · exact ih isRoot _ _ detached 0 (i + 1) hnext (haround ha)
termination_by before.length
decreasing_by
  rw [List.length_drop, List.length_cons]
  omega

end

/-! ## blocks that are passed over -/

section
variable (catalog : Catalog) (isRoot : Bool) (e : Element)

/-- a block is passed over, up to the closer that brings its braces into balance -/
theorem readBlock_block_agrees {close : Line} (hc : close.tokens = [blockClose]) (rest : List Line)
    {body : List Line} (hl : ∀ line ∈ body, line.IsScanned) {depth : Nat}
    (hb : BalancedFrom depth body) (outer : Nat) (detached : Bool) (i : Nat) :
    (readBlock catalog isRoot e (outer + depth + 1) detached i (body ++ close :: rest)).Agrees
      (readBlock catalog isRoot e outer detached (i + body.length + 1) rest) := by
  induction body generalizing depth i with
  | nil =>
    obtain rfl : depth = 0 := balancedFrom_nil.mp hb
    have hfirst : close.first = blockClose := by
      rw [Line.first, Line.token, hc]
      rfl
    rw [List.nil_append, readBlock_succ_close hfirst]
    exact (isAnchored_readBlock catalog isRoot e outer detached _ rest).after_line_agrees i
  | cons line body ih =>
    obtain ⟨hline, hbody⟩ := List.forall_mem_cons.mp hl
    have hlen : i + (line :: body).length + 1 = i + 1 + body.length + 1 := by
      rw [List.length_cons]
      omega
    have hnext : ∀ {d}, BalancedFrom d body →
        ((readBlock catalog isRoot e (outer + d + 1) detached (i + 1) (body ++ close :: rest)).after
          [.line i]).Agrees (readBlock catalog isRoot e outer detached (i + 1 + body.length + 1) rest) :=
      fun {d} hd => ((isAnchored_readBlock catalog isRoot e _ detached _ _).after_line_agrees i).trans
        (ih hbody hd (i + 1))
    rw [hlen, List.cons_append]
    by_cases hcl : line.closes = true
    · rw [balancedFrom_cons_of_closes hline hcl] at hb
      have hd : outer + depth = outer + (depth - 1) + 1 := by
        have := hb.1
        omega
      rw [readBlock_succ_close (hline.first_eq_blockClose_iff.mpr hcl), hd]
      exact hnext hb.2
    · rw [readBlock_succ_cons fun hf => hcl (hline.first_eq_blockClose_iff.mp hf)]
      by_cases ho : line.opens = true
      · rw [balancedFrom_cons_of_opens hline ho] at hb
        rw [if_pos ho]
        exact hnext hb
      · rw [balancedFrom_cons_of_neither hline ho hcl] at hb
        rw [if_neg ho]
        exact hnext hb

theorem readBlock_moved (depth : Nat) (detached : Bool) (n m : Nat) (lines : List Line) :
    (readBlock catalog isRoot e depth detached (n + m) lines).result =
        (readBlock catalog isRoot e depth detached n lines).result ∧
      ∀ i j, remarksFrom j (readBlock catalog isRoot e depth detached (n + m) lines).events =
        (remarksFrom i (readBlock catalog isRoot e depth detached n lines).events).map
          (Remark.moved n m) := by
  have halike := (detaches_refl 0 lines).readsAlike catalog
  have hechoes : (readBlock catalog isRoot e depth detached n lines).Echoes m id
      (readBlock catalog isRoot e depth detached (n + m) lines) :=
    readBlock_echoes (retypes_id catalog) isRoot e depth detached rfl rfl
  refine ⟨(halike.block isRoot e depth detached n (n + m)).result, fun i j => ?_⟩
  have hlooks : LooksFirst (readBlock catalog isRoot e depth detached n lines).events :=
    isAnchored_readBlock catalog isRoot e depth detached n lines
  have hlooks' : LooksFirst (readBlock catalog isRoot e depth detached (n + m) lines).events :=
    isAnchored_readBlock catalog isRoot e depth detached (n + m) lines
  rw [hlooks'.remarksFrom_eq j (n + m), hechoes.events.remarks, hlooks.remarksFrom_eq i n]
  refine List.map_congr_left fun r hr => (if_neg ?_).symm
  obtain ⟨entry, hentry, rfl⟩ := List.mem_map.mp hr
  have hin := reportsFrom_within
    (reads_readBlock catalog isRoot e depth detached n lines).within n entry hentry
  show ¬entry.1 < n
  omega

end

/-! ## rejected statements -/

namespace Statement

/-- if the statement is rejected, it is for an error -/
def IsMild (s : Statement) : Prop := ∀ p, s = rejected p → p.severity = .error

theorem isMild_withValue {n : Nat} {ts : List String} {f : String → Statement}
    (hf : ∀ value, (f value).IsMild) : (withValue n ts f).IsMild := by
  unfold withValue
  cases requireClosed n ts with
  | error b => exact nofun
  | ok u => exact hf _

theorem isMild_rejected {q : Problem} (h : q.severity = .error) : (rejected q).IsMild := by
  rintro p ⟨⟩
  exact h

theorem isMild_variableOfLine (isRoot : Bool) (line : Line) :
    (variableOfLine isRoot line).IsMild := by
  unfold variableOfLine
  simp only
  repeat' split
  · exact isMild_rejected rfl
  · exact isMild_rejected rfl
  · exact isMild_withValue fun _ => nofun
  · exact nofun
  · exact isMild_rejected rfl

theorem isMild_childBefore (typeName : String) (name? : Option String) (token : String) :
    (childBefore typeName name? token).IsMild := by
  unfold childBefore
  repeat' split
  · exact nofun
  · exact nofun
  · exact isMild_rejected rfl

theorem isMild_childOfLine (line : Line) : (childOfLine line).IsMild := by
  unfold childOfLine
  simp only
  repeat' split
  · exact isMild_rejected rfl
  · exact isMild_childBefore _ _ _
  · exact isMild_childBefore _ _ _

theorem isMild_propertyOfLine (line : Line) : (propertyOfLine line).IsMild := by
  unfold propertyOfLine
  simp only
  repeat' split
  · exact isMild_withValue fun _ => nofun
  · exact isMild_rejected rfl
  · exact isMild_rejected rfl

theorem isMild_ofLine (isRoot : Bool) (line : Line) : (ofLine isRoot line).IsMild := by
  unfold ofLine
  repeat' split
  · exact isMild_rejected rfl
  · exact isMild_variableOfLine isRoot line
  · exact isMild_childOfLine line
  · exact isMild_propertyOfLine line

end Statement

/-- a statement that opens a block and is rejected for `p` in the block of a root, or of a child; the
lines of its block, and the closer of the block -/
structure RejectedStatement (isRoot : Bool) (head : Line) (body : List Line) (close : Line)
    (p : Problem) : Prop where
  scannedHead : head.IsScanned
  opener : head.endsOpen = true
  notLone : head.isLoneOpen = false
  rejects : Statement.ofLine isRoot head = .rejected p
  scanned : ∀ line ∈ body, line.IsScanned
  balanced : Balanced body
  closer : close.tokens = [blockClose]

namespace RejectedStatement

variable {isRoot : Bool} {head close : Line} {body : List Line} {p : Problem}
  (h : RejectedStatement isRoot head body close p)
include h

theorem opens : head.opens = true ∧ head.first ≠ blockClose := by
  have ho : head.opens = true := h.scannedHead.opens_eq.trans h.opener
  refine ⟨ho, fun hf => ?_⟩
  exact h.scannedHead.not_opens_of_closes (h.scannedHead.first_eq_blockClose_iff.mp hf) ho

/-- behind the block of the statement the lines go on as without it, further down -/
theorem passed (catalog : Catalog) (after : List Line) (n : Nat) (isRoot : Bool) (e : Element)
    (outer : Nat) (detached : Bool) :
    (readBlock catalog isRoot e (outer + 1) detached (n + 1) (body ++ close :: after)).result =
        (readBlock catalog isRoot e outer detached n after).result ∧
      ∀ i j, remarksFrom j
          (readBlock catalog isRoot e (outer + 1) detached (n + 1) (body ++ close :: after)).events =
        (remarksFrom i (readBlock catalog isRoot e outer detached n after).events).map
          (Remark.moved n (head :: (body ++ [close])).length) := by
  have hlen : n + (head :: (body ++ [close])).length = n + 1 + body.length + 1 := by
    rw [List.length_cons, List.length_append, List.length_singleton]
    omega
  obtain ⟨hresult, hreports⟩ := readBlock_block_agrees catalog isRoot e h.closer after h.scanned
    (balancedFrom_zero.mpr h.balanced) outer detached (n + 1)
  obtain ⟨hresult', hremarks⟩ := readBlock_moved catalog isRoot e outer detached n
    (head :: (body ++ [close])).length after
  rw [← hlen] at hresult hreports
  refine ⟨hresult.trans hresult', fun i j => ?_⟩
  rw [← hremarks i j, remarksFrom]
  exact congrArg (List.map _) (hreports j)

/-- in a block a rejected statement is one problem, and it is passed over in the blocks around it -/
theorem putsIn (catalog : Catalog) {after : List Line}
    (ha : ∀ line, after.head? = some line → line.isLoneOpen = false) (n : Nat) :
    PutsIn catalog n (head :: (body ++ [close])).length p (· = isRoot) after
      (head :: (body ++ [close]) ++ after) := by
  obtain ⟨hopens, hfirst⟩ := h.opens
  have hlines : head :: (body ++ [close]) ++ after = head :: (body ++ close :: after) := by
    rw [List.cons_append, List.append_assoc]
    rfl
  rw [hlines]
  refine ⟨?_, fun isRoot e depth detached => ?_, fun c => ⟨?_, ?_⟩⟩
  · rintro isRoot rfl e detached
    -- behind the statement no header waits for an opener any more
    have hdetached : readBlock catalog isRoot e 0 detached n after =
        readBlock catalog isRoot e 0 false n after := by
      cases after with
      | nil => rw [readBlock_nil, readBlock_nil]
      | cons line lines => exact readBlock_detached catalog isRoot (ha line rfl) e detached n lines
    have hlone : ¬(detached = true ∧ head.isLoneOpen = true) := fun hd =>
      Bool.false_ne_true (h.notLone.symm.trans hd.2)
    obtain ⟨hresult, hremarks⟩ := h.passed catalog after n isRoot e 0 false
    rw [hdetached, readBlock, if_neg hfirst, if_neg (not_not_intro rfl), if_neg hlone, h.rejects,
      depthAfterStatement, if_pos hopens]
    exact Traced.inserts_of_isOpen rfl hresult fun i _ =>
      ⟨[], _, rfl, congrArg (Remark.ofProblem n p :: ·) (hremarks i n)⟩
  · obtain ⟨hresult, hremarks⟩ := h.passed catalog after n isRoot e (depth + 1) detached
    rw [readBlock_succ_cons hfirst, if_pos hopens]
    exact Traced.inserts_of_isOpen rfl hresult fun i _ => ⟨[], _, rfl, hremarks i n⟩
  · cases after with
    | nil => rfl
    | cons line lines =>
      unfold readChild
      simp only [if_true, ha line rfl]
      rfl
  · unfold readChild
    simp only [if_true, h.notLone]
    rfl

end RejectedStatement

/-! ## the elements of headers -/

/-- A statement that opens a block and is rejected, wherever it stands in the block of a root or of a
child, is one error: the element is the same without it and its block, and so is all that is
reported, but for the places behind it. -/
theorem Header.build_rejected (catalog : Catalog) (h : Header) {isRoot : Bool}
    {head close : Line} {body before after : List Line} {p : Problem}
    (hp : RejectedStatement isRoot head body close p) (hstart : h.start < before.length)
    (hs : standing true 0 false (before.drop (h.start + 1)) = .statement isRoot)
    (ha : ∀ line, after.head? = some line → line.isLoneOpen = false) :
    let block := head :: (body ++ [close])
    let n := before.length
    let r := h.build catalog (before ++ after)
    let r' := h.build catalog (before ++ (block ++ after))
    p.severity = .error ∧ r'.result = r.result ∧
      ∃ xs ys, remarksFrom 0 r.events = xs ++ ys ∧
        remarksFrom 0 r'.events = xs.map (Remark.moved n block.length) ++
          Remark.ofProblem n p :: ys.map (Remark.moved n block.length) := by
  intro block n r r'
  have hdrop : ∀ rest, (before ++ rest).drop (h.start + 1) = before.drop (h.start + 1) ++ rest :=
    fun rest => List.drop_append_of_le_length hstart
  have hlen : h.start + 1 + (before.drop (h.start + 1)).length = n := by
    rw [List.length_drop]
    omega
  have hblock := (hp.putsIn catalog ha n).readBlock true (.bare h.name .userDefined) 0 false hlen
    fun r hr => Standing.statement.inj (hr.symm.trans hs)
  rw [hs, ← hdrop, ← hdrop] at hblock
  have hpure : ∀ root, (Traced.pure (⟨root, h.file⟩ : DeclaredElement)).Inserts n block.length p
      .passing (.pure ⟨root, h.file⟩) :=
    fun root => Traced.inserts_of_isOpen rfl rfl fun _ _ => ⟨[], [], rfl, rfl⟩
  have hbuild := hblock.bind (fun _ => hpure) (fun _ => rfl)
  exact ⟨Statement.isMild_ofLine isRoot head p hp.rejects, hbuild.result, hbuild.remarks 0 0⟩

/-- a variable in the block of a child; its own block holds a child with an open bracket.  Behind it
stands a line that is no statement -/
theorem Header.build_rejected_menu :
    let h : Header := ⟨"A", "m.kml", 0, 1⟩
    let head : Line := ⟨["var", "n", "\x7b"], 2⟩
    let body := Line.ofSource "child C \x7b p = (; \x7d z = \x7b \x7d"
    let block := head :: (body ++ [⟨["\x7d"], 3⟩])
    let before := Line.ofSource "element A \x7b child Box b \x7b x = 1;"
    let after := Line.ofSource "w v; y = 2; \x7d u = 3; \x7d"
    let r := h.build .standard (before ++ after)
    let r' := h.build .standard (before ++ (block ++ after))
    standing true 0 false (before.drop 1) = .statement false ∧
      Statement.ofLine false head = .rejected .nestedVariable ∧ Balanced body ∧
      r.result.toOption.isSome = true ∧ r'.result = r.result ∧
      remarksFrom 0 r.events = [.ofProblem 3 (.afterProperty "w" "v")] ∧
      (remarksFrom 0 r'.events).length = 2 ∧
      .ofProblem 3 .nestedVariable ∈ remarksFrom 0 r'.events := by
  intro h head body block before after r r'
  have hs : standing true 0 false (before.drop 1) = .statement false := by decide +kernel
  have hp : Statement.ofLine false head = .rejected .nestedVariable := by decide +kernel
  have hb : Balanced body := by decide +kernel
  have hn : before.length = 3 := by decide +kernel
  have ha : ∀ line, after.head? = some line → line.isLoneOpen = false := by decide +kernel
  have hr : r.result.toOption.isSome = true := by decide +kernel
  have hremarks : remarksFrom 0 r.events = [.ofProblem 3 (.afterProperty "w" "v")] := by
    decide +kernel
  have hhead : head ∈ Line.ofSource "\nvar n \x7b" := by decide +kernel
  have hrejected : RejectedStatement false head body ⟨["\x7d"], 3⟩ .nestedVariable :=
    ⟨Line.isScanned_of_mem hhead, rfl, rfl, hp, fun _ hl => Line.isScanned_of_mem hl, hb, rfl⟩
  obtain ⟨-, hresult, xs, ys, hxy, hxy'⟩ :=
    Header.build_rejected .standard h hrejected (by rw [hn]; decide) hs ha
  refine ⟨hs, hp, hb, hr, hresult, hremarks, ?_, ?_⟩
  · have hlen := congrArg List.length (hxy.symm.trans hremarks)
    rw [List.length_append] at hlen
    simp only [List.length_singleton] at hlen
    rw [hxy']
    simp only [List.length_append, List.length_cons, List.length_map]
    omega
  · rw [hxy', hn]
    exact List.mem_append_right _ List.mem_cons_self

end Markup
