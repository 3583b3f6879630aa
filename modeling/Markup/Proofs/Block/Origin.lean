import Markup.Proofs.Outline.Aside
import Markup.Proofs.Part

/-!
# Where the parts of an element come from

The reading of a block adds parts to an element, each of which is stated on a line of the block
(`Adds`); the lines of the block come in order, so no line is used twice.  If nothing is reported, no
line of the block is lost (`Accounts`): a line that adds no part is a brace, repeats a variable, or is
aside.

Both hold of a stretch of lines if they hold of two stretches that make it up (`Adds.append`,
`Accounts.append`), and so of a whole block (`stems_readBlock`).
-/

namespace Markup

/-! ## stretches of lines -/

variable (catalog : Catalog) (lines : List Line)

/-- the lines from `first` up to `stop` add new parts to an element, each with the place of its
line -/
structure Adds (first stop : Nat) (e e' : Element) (new : List (Nat × Part)) : Prop where
  typeName : e'.typeName = e.typeName
  kind : e'.kind = e.kind
  name? : e'.name? = e.name?
  parts : e'.parts.Perm (e.parts ++ new.map Prod.snd)
  ascending : (new.map Prod.fst).Pairwise (· < ·)
  within : ∀ x ∈ new, first ≤ x.1 ∧ x.1 < stop
  states : ∀ x ∈ new, ∃ line, lines[x.1]? = some line ∧ line.States catalog x.2

/-- line `i` declares a variable of a name that is declared before, in the element or by a new
part -/
def Repeats (e : Element) (new : List (Nat × Part)) (i : Nat) : Prop :=
  ∃ line name v v', lines[i]? = some line ∧ line.States catalog (.var name v) ∧
    (.var name v' ∈ e.parts ∨ ∃ j < i, (j, .var name v') ∈ new)

/-- each line from `first` up to `stop` that is no brace adds a part, repeats a variable or is
aside -/
def Accounts (first stop : Nat) (e : Element) (new : List (Nat × Part)) : Prop :=
  ∀ i line, first ≤ i → i < stop → lines[i]? = some line → line.isLoneOpen = false →
    line.isLoneClose = false →
    i ∈ new.map Prod.fst ∨ Repeats catalog lines e new i ∨ IsAside lines i

variable {catalog lines} {first mid stop : Nat} {e e' e'' : Element} {new new' : List (Nat × Part)}
  {line : Line}

theorem Adds.none (e : Element) : Adds catalog lines first stop e e [] where
  typeName := rfl
  kind := rfl
  name? := rfl
  parts := by rw [List.map_nil, List.append_nil]
  ascending := List.Pairwise.nil
  within := fun _ hx => absurd hx List.not_mem_nil
  states := fun _ hx => absurd hx List.not_mem_nil

theorem Adds.append (h : Adds catalog lines first mid e e' new)
    (h' : Adds catalog lines mid stop e' e'' new') (hm : first ≤ mid) (hs : mid ≤ stop) :
    Adds catalog lines first stop e e'' (new ++ new') where
  typeName := h'.typeName.trans h.typeName
  kind := h'.kind.trans h.kind
  name? := h'.name?.trans h.name?
  parts := by
    rw [List.map_append, ← List.append_assoc]
    exact h'.parts.trans (h.parts.append_right _)
  ascending := by
    rw [List.map_append, List.pairwise_append]
    refine ⟨h.ascending, h'.ascending, fun i hi j hj => ?_⟩
    -- the first stretch ends at `mid`, where the second begins
    obtain ⟨x, hx, rfl⟩ := List.mem_map.mp hi
    obtain ⟨y, hy, rfl⟩ := List.mem_map.mp hj
    have hlt := (h.within x hx).2
    have hle := (h'.within y hy).1
    omega
  within := by
    intro x hx
    rcases List.mem_append.mp hx with hx | hx
    · have hw := h.within x hx
      omega
    · have hw := h'.within x hx
      omega
  states := fun x hx => (List.mem_append.mp hx).elim (h.states x) (h'.states x)

theorem Accounts.append (h : Accounts catalog lines first mid e new)
    (ha : Adds catalog lines first mid e e' new) (h' : Accounts catalog lines mid stop e' new') :
    Accounts catalog lines first stop e (new ++ new') := by
  intro i line hf hs hline hopen hclose
  rw [List.map_append, List.mem_append]
  by_cases hi : i < mid
  · rcases h i line hf hi hline hopen hclose with hmem | ⟨l, name, v, v', hl, hv, hrep⟩ | haside
    · exact Or.inl (Or.inl hmem)
    · refine Or.inr (Or.inl ⟨l, name, v, v', hl, hv, hrep.imp_right ?_⟩)
      exact fun ⟨j, hj, hm⟩ => ⟨j, hj, List.mem_append_left _ hm⟩
    · exact Or.inr (Or.inr haside)
  · rcases h' i line (by omega) hs hline hopen hclose with
      hmem | ⟨l, name, v, v', hl, hv, hrep⟩ | haside
    · exact Or.inl (Or.inr hmem)
    · refine Or.inr (Or.inl ⟨l, name, v, v', hl, hv, ?_⟩)
      rcases hrep with hpart | ⟨j, hj, hm⟩
      · -- the first declaration is among the parts that the first stretch adds, or before them
        rcases List.mem_append.mp (ha.parts.mem_iff.mp hpart) with hpart | hpart
        · exact Or.inl hpart
        · obtain ⟨⟨j, p⟩, hx, hp⟩ := List.mem_map.mp hpart
          obtain rfl : p = .var name v' := hp
          have hw : j < mid := (ha.within _ hx).2
          exact Or.inr ⟨j, by omega, List.mem_append_left _ hx⟩
      · exact Or.inr ⟨j, hj, List.mem_append_right _ hm⟩
    · exact Or.inr (Or.inr haside)

/-! ## one line -/

theorem Adds.single {p : Part} (hline : lines[first]? = some line) (hst : line.States catalog p)
    (ht : e'.typeName = e.typeName) (hk : e'.kind = e.kind) (hn : e'.name? = e.name?)
    (hp : e'.parts.Perm (e.parts ++ [p])) :
    Adds catalog lines first (first + 1) e e' [(first, p)] where
  typeName := ht
  kind := hk
  name? := hn
  parts := hp
  ascending := List.pairwise_singleton _ _
  within := by
    intro x hx
    rw [List.mem_singleton.mp hx]
    exact ⟨Nat.le_refl _, Nat.lt_succ_self _⟩
  states := by
    intro x hx
    rw [List.mem_singleton.mp hx]
    exact ⟨line, hline, hst⟩

theorem Accounts.single (e : Element) (p : Part) :
    Accounts catalog lines first (first + 1) e [(first, p)] := by
  intro i line hf hs _ _ _
  obtain rfl : i = first := by omega
  exact Or.inl List.mem_cons_self

theorem Accounts.brace (hline : lines[first]? = some line)
    (hb : line.isLoneOpen = true ∨ line.isLoneClose = true) (e : Element) :
    Accounts catalog lines first (first + 1) e [] := by
  intro i l hf hs hl hopen hclose
  obtain rfl : i = first := by omega
  obtain rfl : line = l := Option.some.inj (hline.symm.trans hl)
  rcases hb with hb | hb
  · exact absurd (hopen.symm.trans hb) (by simp)
  · exact absurd (hclose.symm.trans hb) (by simp)

theorem exists_adds_variable (hline : lines[first]? = some line) {name : String} {v : Variable}
    (hst : line.States catalog (.var name v)) :
    ∃ new, Adds catalog lines first (first + 1) e (e.addVariable name v) new ∧
      Accounts catalog lines first (first + 1) e new := by
  cases hlook : e.lookupVariable name with
  | none =>
    have hadd : e.addVariable name v = { e with vars := e.vars ++ [(name, v)] } := by
      rw [Element.addVariable, hlook]
      rfl
    refine ⟨_, .single hline hst ?_ ?_ ?_ (Element.parts_addVariable hlook v), .single e _⟩
    all_goals rw [hadd]
  | some v₀ =>
    have hsome : (e.lookupVariable name).isSome = true := by rw [hlook]; rfl
    have hadd : e.addVariable name v = e := by rw [Element.addVariable, if_pos hsome]
    obtain ⟨v', hv'⟩ := Element.var_mem_parts hsome
    refine ⟨[], ?_, fun i l hf hs hl _ _ => ?_⟩
    · rw [hadd]
      exact .none e
    · obtain rfl : i = first := by omega
      exact Or.inr (Or.inl ⟨line, name, v, v', hline, hst, Or.inl hv'⟩)

/-- a header adds the child with all that its block adds to it -/
theorem Adds.child {start : Nat} {c₀ c : Element} (hline : lines[first]? = some line)
    (hst : line.States catalog (.child c₀.typeName c₀.kind c₀.name?)) (hc₀ : c₀.parts = [])
    (hlt : first < start) (hle : start ≤ stop) (h : Adds catalog lines start stop c₀ c new) :
    Adds catalog lines first stop e (e.addChild c)
      ((first, .child c₀.typeName c₀.kind c₀.name?) :: new) where
  typeName := rfl
  kind := rfl
  name? := rfl
  parts := by
    have hp := h.parts
    rw [hc₀, List.nil_append] at hp
    rw [Element.parts_addChild, h.typeName, h.kind, h.name?]
    exact (hp.cons _).append_left _
  ascending := by
    rw [List.map_cons, List.pairwise_cons]
    refine ⟨fun i hi => ?_, h.ascending⟩
    obtain ⟨x, hx, rfl⟩ := List.mem_map.mp hi
    have hw := (h.within x hx).1
    show first < x.1
    omega
  within := by
    intro x hx
    rcases List.mem_cons.mp hx with rfl | hx
    · exact ⟨Nat.le_refl _, Nat.lt_of_lt_of_le hlt hle⟩
    · have hw := h.within x hx
      omega
  states := by
    intro x hx
    rcases List.mem_cons.mp hx with rfl | hx
    · exact ⟨line, hline, hst⟩
    · exact h.states x hx

/-- the lines between a header and the block of its child are openers, and no variable stands before
the child in it -/
theorem Accounts.child {start : Nat} {c₀ : Element} (hc₀ : c₀.parts = []) (p : Part)
    (hb : ∀ i line, first < i → i < start → lines[i]? = some line → line.isLoneOpen = true)
    (h : Accounts catalog lines start stop c₀ new) :
    Accounts catalog lines first stop e ((first, p) :: new) := by
  intro i line hf hs hline hopen hclose
  by_cases hi : i = first
  · exact Or.inl (List.mem_cons.mpr (Or.inl hi))
  · by_cases hlt : i < start
    · have hlone := hb i line (by omega) hlt hline
      exact absurd (hopen.symm.trans hlone) (by simp)
    · rcases h i line (by omega) hs hline hopen hclose with
        hmem | ⟨l, name, v, v', hl, hv, hpart | ⟨j, hj, hm⟩⟩ | haside
      · exact Or.inl (List.mem_cons_of_mem _ hmem)
      · rw [hc₀] at hpart
        exact absurd hpart List.not_mem_nil
      · exact Or.inr (Or.inl ⟨l, name, v, v', hl, hv, Or.inr ⟨j, hj, List.mem_cons_of_mem _ hm⟩⟩)
      · exact Or.inr (Or.inr haside)

/-! ## readings -/

/-- what the reading adds to the element stems from the lines from `first` up to `stop`, and if it is
quiet they are all accounted for -/
def Stems (catalog : Catalog) (lines : List Line) (first stop : Nat) (e : Element)
    (r : Traced Element) : Prop :=
  ∀ e', r.result = .ok e' → ∃ new, Adds catalog lines first stop e e' new ∧
    (IsQuiet r.events → Accounts catalog lines first stop e new)

/-- what is said of the block that goes on with the line at place `first`, if there is one -/
def StemsFrom (catalog : Catalog) (lines : List Line) (first : Nat) : Prop :=
  ∀ (isRoot : Bool) (e : Element), (first < lines.length → depthBefore lines first ≠ 0) →
    Stems catalog lines first (first + blockLength 0 (lines.drop first)) e
      (readBlock catalog isRoot e 0 false first (lines.drop first))

variable {r r' : Traced Element}

theorem Stems.congr (h : Stems catalog lines first stop e r) (hr : r'.result = r.result)
    (hq : IsQuiet r'.events → IsQuiet r.events) : Stems catalog lines first stop e r' := by
  intro e' he
  obtain ⟨new, hadds, hacc⟩ := h e' (hr.symm.trans he)
  exact ⟨new, hadds, fun hquiet => hacc (hq hquiet)⟩

theorem Stems.of_agrees (h : Stems catalog lines first stop e r) (hr : r'.Agrees r) :
    Stems catalog lines first stop e r' := h.congr hr.1 hr.isQuiet.mp

theorem Stems.after_line (h : Stems catalog lines first stop e r) (i : Nat) :
    Stems catalog lines first stop e (r.after [.line i]) := h.congr rfl IsQuiet.tail

theorem Stems.append (h : Stems catalog lines mid stop e' r)
    (hadds : Adds catalog lines first mid e e' new) (hacc : Accounts catalog lines first mid e new)
    (hm : first ≤ mid) (hs : mid ≤ stop) : Stems catalog lines first stop e r := by
  intro e'' he
  obtain ⟨new', hadds', hacc'⟩ := h e'' he
  exact ⟨new ++ new', hadds.append hadds' hm hs, fun hq => hacc.append hadds (hacc' hq)⟩

theorem Stems.after_problem (h : Stems catalog lines mid stop e r) (hm : first ≤ mid)
    (hs : mid ≤ stop) (p : Problem) : Stems catalog lines first stop e (r.after [.problem p]) := by
  intro e' he
  obtain ⟨new, hadds, _⟩ := h e' he
  refine ⟨new, ?_, fun hq => absurd hq not_isQuiet_problem⟩
  exact (Adds.none e).append hadds hm hs

/-! ## blocks -/

section
variable {isRoot : Bool}

theorem StemsFrom.behind {start : Nat}
    (ih : StemsFrom catalog lines (start + blockLength 0 (lines.drop start)))
    (hd : start + blockLength 0 (lines.drop start) < lines.length →
      depthBefore lines (start + blockLength 0 (lines.drop start)) ≠ 0) (e : Element) :
    Stems catalog lines (start + blockLength 0 (lines.drop start))
      (start + blockLength 1 (lines.drop start)) e
      (readBlock catalog isRoot e 1 false start (lines.drop start)) := by
  have hagrees := readBlock_succ_agrees catalog isRoot e 0 false start (lines.drop start)
  have hstems := ih isRoot e hd
  rw [List.drop_drop] at hagrees
  rw [blockLength_succ, List.drop_drop, ← Nat.add_assoc]
  exact hstems.of_agrees hagrees

variable (hline : lines[first]? = some line)
include hline

theorem blockLength_drop (hc : line.first ≠ blockClose) : blockLength 0 (lines.drop first) =
    blockLength (depthAfterStatement line) (lines.drop (first + 1)) + 1 := by
  obtain ⟨hlt, hget⟩ := List.getElem?_eq_some_iff.mp hline
  rw [List.drop_eq_getElem_cons hlt, hget, blockLength_statement hc]

variable (hl : ∀ line ∈ lines, line.IsCut) (hd : depthBefore lines first ≠ 0)
include hl hd

/-- in the block of a child, which a line at place `k` opens, and behind it -/
theorem stems_in_child {k : Nat} {c₀ : Element}
    (hst : line.States catalog (.child c₀.typeName c₀.kind c₀.name?)) (hc₀ : c₀.parts = [])
    (ih : ∀ k, first < k → StemsFrom catalog lines k) (hk : first ≤ k)
    (hb : ∀ i l, first < i → i < k + 1 → lines[i]? = some l → l.isLoneOpen = true)
    (h0 : depthBefore lines k = depthBefore lines first)
    (h1 : depthBefore lines (k + 1) = depthBefore lines k + 1) :
    Stems catalog lines first (k + 1 + blockLength 1 (lines.drop (k + 1))) e
      ((readBlock catalog false c₀ 0 false (k + 1) (lines.drop (k + 1))).bind fun c =>
        readBlock catalog isRoot (e.addChild c) 1 false (k + 1) (lines.drop (k + 1))) := by
  have hscanned := Line.forall_isScanned hl
  have hsucc : blockLength 1 (lines.drop (k + 1)) = _ := blockLength_succ 0 _
  intro e' he
  obtain ⟨c, hresult, he⟩ := Traced.result_bind_eq_ok.mp he
  rw [Traced.events_bind_of_ok hresult, isQuiet_append]
  -- the block of the child and what stands behind it both begin after `first`
  obtain ⟨newc, haddc, haccc⟩ := ih (k + 1) (by omega) false c₀ (fun _ => by omega) c hresult
  have hbehind := ih (k + 1 + blockLength 0 (lines.drop (k + 1))) (by omega)
  have hdepth : k + 1 + blockLength 0 (lines.drop (k + 1)) < lines.length →
      depthBefore lines (k + 1 + blockLength 0 (lines.drop (k + 1))) ≠ 0 := by
    intro hlt
    rcases depthBefore_behind hscanned h1 with hb | hb
    · rw [hb, h0]
      exact hd
    · omega
  obtain ⟨new, hadds, hacc⟩ := hbehind.behind hdepth (e.addChild c) e' he
  have hchild : Adds catalog lines first _ e (e.addChild c) _ :=
    .child hline hst hc₀ (by omega) (Nat.le_add_right _ _) haddc
  refine ⟨_, hchild.append hadds (by omega) (by omega), fun ⟨hqc, hq⟩ => ?_⟩
  exact (Accounts.child hc₀ _ hb (haccc hqc)).append hchild (hacc hq)

variable (hc : line.first ≠ blockClose)
include hc

theorem depthBefore_statement :
    depthBefore lines (first + 1) = depthBefore lines first + depthAfterStatement line := by
  obtain ⟨d, hd⟩ := Nat.exists_eq_succ_of_ne_zero hd
  have hs := (hl line (List.mem_of_getElem? hline)).isScanned
  rw [depthBefore_succ hline, hd, Nat.succ_eq_add_one, depthAfter_succ_eq hs, if_neg hc,
    depthAfterStatement]
  split <;> rfl

/-- after a line that is no header, the block goes on behind the block that the line opens, if it
opens one -/
theorem exists_stems_after (ih : ∀ k, first < k → StemsFrom catalog lines k) (e : Element) :
    ∃ mid, first < mid ∧ mid ≤ first + blockLength 0 (lines.drop first) ∧
      (∀ i, first < i → i < mid → Encloses lines first i ∧ line.opens = true) ∧
      Stems catalog lines mid (first + blockLength 0 (lines.drop first)) e
        (readBlock catalog isRoot e (depthAfterStatement line) false (first + 1)
          (lines.drop (first + 1))) := by
  have hscanned := Line.forall_isScanned hl
  have h1 := depthBefore_statement hline hl hd hc
  rw [blockLength_drop hline hc]
  by_cases ho : line.opens = true
  · rw [depthAfterStatement, if_pos ho] at h1 ⊢
    have hsucc : blockLength 1 (lines.drop (first + 1)) = _ := blockLength_succ 0 _
    have hstop : first + (blockLength 1 (lines.drop (first + 1)) + 1) =
        first + 1 + blockLength 1 (lines.drop (first + 1)) := by omega
    have hbehind := ih (first + 1 + blockLength 0 (lines.drop (first + 1))) (by omega)
    refine ⟨first + 1 + blockLength 0 (lines.drop (first + 1)), by omega, by omega,
      fun i hi hlt => ⟨encloses_of_le hscanned h1 hi (by omega), ho⟩, ?_⟩
    rw [hstop]
    refine hbehind.behind (fun hlt => ?_) e
    rcases depthBefore_behind hscanned h1 with hb | hb
    · rw [hb]
      exact hd
    · omega
  · rw [depthAfterStatement, if_neg ho] at h1 ⊢
    have hstop : first + (blockLength 0 (lines.drop (first + 1)) + 1) =
        first + 1 + blockLength 0 (lines.drop (first + 1)) := by omega
    refine ⟨first + 1, Nat.lt_succ_self _, by omega, fun i hi hlt => by omega, ?_⟩
    rw [hstop]
    refine ih (first + 1) (Nat.lt_succ_self _) isRoot e fun _ => ?_
    rw [h1]
    exact hd

/-- after a property or a variable; if its line opens a block, this is passed over -/
theorem stems_statement (ih : ∀ k, first < k → StemsFrom catalog lines k)
    (haside : line.opens = true → OpensAside lines first)
    (hadds : Adds catalog lines first (first + 1) e e' new)
    (hacc : Accounts catalog lines first (first + 1) e new) :
    Stems catalog lines first (first + blockLength 0 (lines.drop first)) e
      (readBlock catalog isRoot e' (depthAfterStatement line) false (first + 1)
        (lines.drop (first + 1))) := by
  obtain ⟨mid, hlt, hle, hin, hstems⟩ := exists_stems_after hline hl hd hc ih e'
  have hskip : Accounts catalog lines (first + 1) mid e' [] := by
    intro i _ hf hm _ _ _
    obtain ⟨henc, ho⟩ := hin i hf hm
    exact Or.inr (Or.inr (Or.inr ⟨first, henc, haside ho⟩))
  exact (hstems.append (.none e') hskip hlt hle).append hadds hacc (Nat.le_succ _) (by omega)

/-- after the header of a detached child, with its opener on the next line -/
theorem stems_detached_opener {c₀ : Element} {opener : Line} {body : List Line}
    (hst : line.States catalog (.child c₀.typeName c₀.kind c₀.name?)) (hc₀ : c₀.parts = [])
    (ih : ∀ k, first < k → StemsFrom catalog lines k) (ho : line.opens ≠ true)
    (hrest : lines.drop (first + 1) = opener :: body) (hlone : opener.isLoneOpen = true) :
    Stems catalog lines first (first + blockLength 0 (lines.drop first)) e
      ((readBlock catalog false c₀ 0 false (first + 1 + 1) body).bind fun c =>
        readBlock catalog isRoot (e.addChild c) 0 true (first + 1) (opener :: body)) := by
  have h1 := depthBefore_statement hline hl hd hc
  have hlen := blockLength_drop hline hc
  rw [depthAfterStatement, if_neg ho] at h1 hlen
  obtain ⟨hopens, hf⟩ := Line.opens_of_isLoneOpen hlone
  have hnextline : lines[first + 1]? = some opener := by
    rw [← List.head?_drop, hrest, List.head?_cons]
  have hbody : lines.drop (first + 1 + 1) = body := drop_succ_of_cons hrest
  have h2 := depthBefore_statement hnextline hl (by rw [h1]; exact hd) hf
  have hlen2 := blockLength_drop hnextline hf
  rw [depthAfterStatement, if_pos hopens] at h2 hlen2
  have hbetween : ∀ i l, first < i → i < first + 1 + 1 → lines[i]? = some l →
      l.isLoneOpen = true := by
    intro i l hi hlt hil
    obtain rfl : i = first + 1 := by omega
    obtain rfl : opener = l := Option.some.inj (hnextline.symm.trans hil)
    exact hlone
  have hstop : first + blockLength 0 (lines.drop first) =
      first + 1 + 1 + blockLength 1 (lines.drop (first + 1 + 1)) := by omega
  rw [hstop]
  refine Stems.of_agrees ?_ (Traced.Agrees.bind_right _ fun c =>
    readBlock_opener_agrees catalog isRoot hlone (e.addChild c) (first + 1) body)
  rw [← hbody]
  exact stems_in_child hline hl hd hst hc₀ ih (Nat.le_succ first) hbetween h1 h2

/-- after the header of a detached child, whose opener may follow -/
theorem stems_detached {c₀ : Element} (ho : line.opens ≠ true)
    (hst : line.States catalog (.child c₀.typeName c₀.kind c₀.name?)) (hc₀ : c₀.parts = [])
    (ih : ∀ k, first < k → StemsFrom catalog lines k) :
    Stems catalog lines first (first + blockLength 0 (lines.drop first)) e
      ((readChild catalog c₀ true (first + 1) (lines.drop (first + 1))).bind fun c =>
        readBlock catalog isRoot (e.addChild c) 0 true (first + 1) (lines.drop (first + 1))) := by
  have h1 := depthBefore_statement hline hl hd hc
  have hlen := blockLength_drop hline hc
  rw [depthAfterStatement, if_neg ho] at h1 hlen
  have hbare : Adds catalog lines first (first + 1) e (e.addChild c₀) [_] :=
    .single hline hst rfl rfl rfl (by rw [Element.parts_addChild, hc₀])
  have hnext : StemsFrom catalog lines (first + 1) := ih _ (Nat.lt_succ_self _)
  -- what holds if the child keeps no parts, as it does without an opener on the next line
  have hwithout : Stems catalog lines first (first + blockLength 0 (lines.drop first)) e
      (readBlock catalog isRoot (e.addChild c₀) 0 false (first + 1) (lines.drop (first + 1))) := by
    rw [hlen, Nat.add_comm _ 1, ← Nat.add_assoc]
    refine (hnext isRoot _ fun _ => ?_).append hbare (.single e _) (Nat.le_succ _)
      (Nat.le_add_right _ _)
    rw [h1]
    exact hd
  cases hrest : lines.drop (first + 1) with
  | nil =>
    have hchild : readChild catalog c₀ true (first + 1) [] = .pure c₀ := rfl
    rw [hrest, readBlock_nil] at hwithout
    rw [hchild, Traced.pure_bind, readBlock_nil]
    exact hwithout
  | cons opener body =>
    by_cases hlone : opener.isLoneOpen = true
    · have hchild : readChild catalog c₀ true (first + 1) (opener :: body) =
          readBlock catalog false c₀ 0 false (first + 1 + 1) body := if_pos hlone
      rw [hchild]
      exact stems_detached_opener hline hl hd hc hst hc₀ ih ho hrest hlone
    · have hchild : readChild catalog c₀ true (first + 1) (opener :: body) = .pure c₀ :=
        if_neg hlone
      rw [hchild, Traced.pure_bind, readBlock_detached catalog _ (Bool.eq_false_iff.mpr hlone),
        ← hrest]
      exact hwithout

/-- a line that is no closer, by the kinds of statements -/
theorem stems_of_ne_close (ih : ∀ k, first < k → StemsFrom catalog lines k) (e : Element) :
    Stems catalog lines first (first + blockLength 0 (lines.drop first)) e
      (readBlock catalog isRoot e 0 false first (line :: lines.drop (first + 1))) := by
  have hcut := hl line (List.mem_of_getElem? hline)
  rw [readBlock, if_neg hc, if_neg (not_not_intro rfl), if_neg (fun hb => Bool.false_ne_true hb.1)]
  refine Stems.after_line ?_ first
  cases hst : Statement.ofLine isRoot line with
  | property name value =>
    obtain ⟨hb, hch⟩ := Statement.first_of_property hst
    have hstates := Line.states_property catalog hcut hst
    exact stems_statement hline hl hd hc ih (opensAside_of_first hline hd hb hch)
      (.single hline hstates rfl rfl rfl (Element.parts_addProperty e _)) (.single e _)
  | declareVariable name value =>
    have hf : line.first = "var" := Statement.first_of_variable hst
    obtain ⟨new, hadds, hacc⟩ :=
      exists_adds_variable (e := e) hline (Line.states_variable catalog hcut hst)
    exact stems_statement hline hl hd hc ih
      (opensAside_of_first hline hd (by rw [hf]; decide) (by rw [hf]; decide)) hadds hacc
  | rejected problem =>
    -- the line is lost, but it is reported
    obtain ⟨mid, hlt, hle, _, hstems⟩ := exists_stems_after hline hl hd hc ih e
    exact hstems.after_problem (Nat.le_of_lt hlt) hle problem
  | unclosed bracket => exact fun e' he => absurd he (by simp [Traced.abandon])
  | child typeName name? detached =>
    have hstates := Line.states_child catalog hcut hst
    have ho : line.opens = !detached := Statement.opens_of_child hcut.isScanned hst
    cases detached with
    | false =>
      have h1 := depthBefore_statement hline hl hd hc
      have hlen := blockLength_drop hline hc
      rw [depthAfterStatement, ho] at h1 hlen ⊢
      have hstop : first + blockLength 0 (lines.drop first) =
          first + 1 + blockLength 1 (lines.drop (first + 1)) := by
        rw [hlen, Nat.add_comm _ 1, ← Nat.add_assoc]
        rfl
      rw [hstop]
      exact stems_in_child hline hl hd hstates (Element.parts_ofHeader _ _ _) ih
        (Nat.le_refl first) (fun i l hi hlt => by omega) rfl h1
    | true =>
      have hno : line.opens ≠ true := by rw [ho]; exact Bool.false_ne_true
      rw [depthAfterStatement, if_neg hno]
      exact stems_detached hline hl hd hc hno hstates (Element.parts_ofHeader _ _ _) ih

end

/-- the reading of a block adds what its lines state, and if it is quiet none of them is lost -/
theorem stems_readBlock (hl : ∀ line ∈ lines, line.IsCut) (first : Nat) :
    StemsFrom catalog lines first := by
  intro isRoot e hd
  by_cases hlen : first < lines.length
  · -- by recursion on the place: a header is followed by two readings, of its block and behind it
    have ih : ∀ k, first < k → StemsFrom catalog lines k := fun k hk => stems_readBlock hl k
    have hline : lines[first]? = some lines[first] := List.getElem?_eq_getElem hlen
    have hcut : lines[first].IsCut := hl _ (List.getElem_mem hlen)
    have hdrop := List.drop_eq_getElem_cons hlen
    generalize lines[first] = line at hline hcut hdrop
    by_cases hc : line.first = blockClose
    · have hclose : line.isLoneClose = true := by
        rw [← hcut.isScanned.closes_eq]
        exact hcut.isScanned.first_eq_blockClose_iff.mp hc
      rw [hdrop, readBlock_close hc, blockLength_zero_close hc]
      intro e' he
      obtain rfl := Except.ok.inj he
      exact ⟨[], .none e, fun _ => .brace hline (Or.inr hclose) e⟩
    · have hstems : Stems catalog lines first _ e
          (readBlock catalog isRoot e 0 false first (line :: _)) :=
        stems_of_ne_close hline hl (hd hlen) hc ih e
      rw [← hdrop] at hstems
      exact hstems
  · intro e' he
    rw [List.drop_eq_nil_of_le (Nat.le_of_not_lt hlen), readBlock_nil] at he
    obtain rfl := Except.ok.inj he
    refine ⟨[], .none e, fun _ i line hf _ hline => ?_⟩
    obtain ⟨hlt, _⟩ := List.getElem?_eq_some_iff.mp hline
    omega
termination_by lines.length - first
decreasing_by omega

end Markup
