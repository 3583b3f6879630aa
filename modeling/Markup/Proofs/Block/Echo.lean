import Markup.Proofs.Block.Extent
import Markup.Proofs.Echo
import Markup.Proofs.Line.Layout

/-!
# Blocks that are read twice

The reading of a block depends on the tokens of its lines only, and on the catalog only for the kinds
of the children.  So the block is read alike from other places, with other line numbers, and with
another catalog: the second reading echoes the first, and the tree that it gives is the first one with
its kinds changed (`readBlock_echoes`).

* `Statement.numbered`     what becomes of a statement on a line with another number;
* `Retypes`                a change of kinds that goes along with a change of the catalog.
-/

namespace Markup

/-! ## lines with the same tokens -/

namespace Line

variable {line line' : Line} (h : line.tokens = line'.tokens)
include h

theorem first_congr : line.first = line'.first := by
  rw [first, first, token, token, h]

theorem opens_congr : line.opens = line'.opens := by
  rw [opens, opens, contains, contains, h]

theorem closes_congr : line.closes = line'.closes := by
  rw [closes, closes, contains, contains, h]

theorem isLoneOpen_congr : line.isLoneOpen = line'.isLoneOpen := by
  rw [isLoneOpen, isLoneOpen, h]

end Line

namespace SameTokens

theorem cons_iff {line : Line} {lines lines' : List Line} : SameTokens (line :: lines) lines' ↔
    ∃ line' rest, lines' = line' :: rest ∧ line.tokens = line'.tokens ∧ SameTokens lines rest := by
  unfold SameTokens
  rw [List.map_cons, eq_comm, List.map_eq_cons_iff]
  constructor
  · rintro ⟨line', rest, rfl, ht, hr⟩
    exact ⟨line', rest, rfl, ht.symm, hr.symm⟩
  · rintro ⟨line', rest, rfl, ht, hr⟩
    exact ⟨line', rest, rfl, ht.symm, hr.symm⟩

theorem nil_iff {lines : List Line} : SameTokens [] lines ↔ lines = [] := by
  unfold SameTokens
  rw [List.map_nil, eq_comm, List.map_eq_nil_iff]

theorem drop {lines lines' : List Line} (h : SameTokens lines lines') (n : Nat) :
    SameTokens (lines.drop n) (lines'.drop n) := by
  unfold SameTokens at h ⊢
  rw [List.map_drop, List.map_drop, h]

end SameTokens

/-! ## statements -/

namespace Statement

/-- the statement on a line with this number -/
def numbered (n : Nat) : Statement → Statement
  | unclosed bracket => unclosed { bracket with line := n }
  | s => s

section
variable (m n : Nat) (ts : List String)

theorem withValue_numbered {f : String → Statement} (hf : ∀ value, (f value).numbered n = f value) :
    withValue n ts f = (withValue m ts f).numbered n := by
  unfold withValue requireClosed
  cases unclosed? ts with
  | some b => rfl
  | none => exact (hf _).symm

theorem variableOfLine_numbered (isRoot : Bool) :
    variableOfLine isRoot ⟨ts, n⟩ = (variableOfLine isRoot ⟨ts, m⟩).numbered n := by
  have htoken : ∀ i, Line.token ⟨ts, n⟩ i = Line.token ⟨ts, m⟩ i := fun _ => rfl
  unfold variableOfLine
  simp only [htoken]
  cases isRoot with
  | false => rfl
  | true =>
    have hroot : ¬(!true) = true := Bool.false_ne_true
    simp only [if_neg hroot]
    by_cases hn : Line.token ⟨ts, m⟩ 1 = "" ∨ Line.token ⟨ts, m⟩ 1 = blockOpen
    · simp only [if_pos hn]
      rfl
    · simp only [if_neg hn]
      by_cases hs : Line.token ⟨ts, m⟩ 2 = "="
      · simp only [if_pos hs]
        exact withValue_numbered m n (ts.drop 3) fun _ => rfl
      · simp only [if_neg hs]
        split <;> rfl

theorem childOfLine_numbered : childOfLine ⟨ts, n⟩ = (childOfLine ⟨ts, m⟩).numbered n := by
  have hbefore : ∀ typeName name? token, (childBefore typeName name? token).numbered n =
      childBefore typeName name? token := by
    intro typeName name? token
    unfold childBefore
    split
    · rfl
    · split <;> rfl
  show childOfLine ⟨ts, m⟩ = _
  unfold childOfLine
  simp only
  split
  · rfl
  · split <;> exact (hbefore _ _ _).symm

theorem propertyOfLine_numbered : propertyOfLine ⟨ts, n⟩ = (propertyOfLine ⟨ts, m⟩).numbered n := by
  have hfirst : Line.first ⟨ts, n⟩ = Line.first ⟨ts, m⟩ := rfl
  have htoken : ∀ i, Line.token ⟨ts, n⟩ i = Line.token ⟨ts, m⟩ i := fun _ => rfl
  unfold propertyOfLine
  simp only [hfirst, htoken]
  by_cases hs : Line.token ⟨ts, m⟩ 1 = "="
  · simp only [if_pos hs]
    exact withValue_numbered m n (ts.drop 2) fun _ => rfl
  · simp only [if_neg hs]
    split <;> rfl

theorem ofLine_numbered (isRoot : Bool) :
    ofLine isRoot ⟨ts, n⟩ = (ofLine isRoot ⟨ts, m⟩).numbered n := by
  have hfirst : Line.first ⟨ts, n⟩ = Line.first ⟨ts, m⟩ := rfl
  unfold ofLine
  rw [hfirst]
  by_cases ho : Line.first ⟨ts, m⟩ = blockOpen
  · simp only [if_pos ho]
    rfl
  · simp only [if_neg ho]
    by_cases hv : Line.first ⟨ts, m⟩ = "var"
    · simp only [if_pos hv]
      exact variableOfLine_numbered m n ts isRoot
    · simp only [if_neg hv]
      by_cases hc : Line.first ⟨ts, m⟩ = "child"
      · simp only [if_pos hc]
        exact childOfLine_numbered m n ts
      · simp only [if_neg hc]
        exact propertyOfLine_numbered m n ts

end

theorem ofLine_of_tokens {line line' : Line} (h : line.tokens = line'.tokens) (isRoot : Bool) :
    ofLine isRoot line' = (ofLine isRoot line).numbered line'.number := by
  obtain ⟨ts, m⟩ := line
  obtain ⟨ts', n⟩ := line'
  obtain rfl : ts = ts' := h
  exact ofLine_numbered m n ts isRoot

end Statement

/-! ## changes of kinds -/

/-- the change `f` of elements goes along with all that is done to an element while it is read, and
the children of the first catalog become those of the second -/
structure Retypes (catalog catalog' : Catalog) (f : Element → Element) : Prop where
  ofHeader : ∀ typeName name?,
    f (.ofHeader catalog typeName name?) = .ofHeader catalog' typeName name?
  addProperty : ∀ e p, f (e.addProperty p) = (f e).addProperty p
  addVariable : ∀ e name v, f (e.addVariable name v) = (f e).addVariable name v
  addChild : ∀ e c, f (e.addChild c) = (f e).addChild (f c)

theorem retypes_id (catalog : Catalog) : Retypes catalog catalog id :=
  ⟨fun _ _ => rfl, fun _ _ => rfl, fun _ _ _ => rfl, fun _ _ => rfl⟩

section
variable {catalog catalog' : Catalog} {f : Element → Element} {k : Nat}

theorem readChild_echoes {lines lines' : List Line} (ht : SameTokens lines lines') {c : Element}
    (ih : ∀ n i j, j = i + k → (readBlock catalog false c 0 false i (lines.drop n)).Echoes k f
      (readBlock catalog' false (f c) 0 false j (lines'.drop n)))
    (detached : Bool) {i j : Nat} (hj : j = i + k) :
    (readChild catalog c detached i lines).Echoes k f
      (readChild catalog' (f c) detached j lines') := by
  unfold readChild
  cases detached with
  | false => exact ih 0 i j hj
  | true =>
    cases lines with
    | nil =>
      obtain rfl := SameTokens.nil_iff.mp ht
      exact Traced.echoes_pure k f c
    | cons opener body =>
      obtain ⟨opener', body', rfl, ho, _⟩ := SameTokens.cons_iff.mp ht
      simp only [if_true, ← Line.isLoneOpen_congr ho]
      split
      · exact ih 1 (i + 1) (j + 1) (by omega)
      · exact Traced.echoes_pure k f c

/-- a block that is read again from a place `k` lines further down, where the lines have the same
tokens -/
theorem readBlock_echoes (h : Retypes catalog catalog' f) (isRoot : Bool) (e : Element)
    (depth : Nat) (detached : Bool) {i j : Nat} (hj : j = i + k) {lines lines' : List Line}
    (ht : SameTokens lines lines') :
    (readBlock catalog isRoot e depth detached i lines).Echoes k f
      (readBlock catalog' isRoot (f e) depth detached j lines') := by
  match lines with
  | [] =>
    obtain rfl := SameTokens.nil_iff.mp ht
    rw [readBlock_nil, readBlock_nil]
    exact Traced.echoes_pure k f e
  | line :: lines =>
    obtain ⟨line', lines', rfl, hline, hlines⟩ := SameTokens.cons_iff.mp ht
    have ih : ∀ isRoot e depth detached n i j, j = i + k →
        (readBlock catalog isRoot e depth detached i (lines.drop n)).Echoes k f
          (readBlock catalog' isRoot (f e) depth detached j (lines'.drop n)) :=
      fun isRoot e depth detached n i j hj =>
        readBlock_echoes h isRoot e depth detached hj (hlines.drop n)
    have hfirst := Line.first_congr hline
    have hopens := Line.opens_congr hline
    have hlone := Line.isLoneOpen_congr hline
    have hafter : depthAfterStatement line' = depthAfterStatement line := by
      rw [depthAfterStatement, depthAfterStatement, hopens]
    have hseen : Echoes k [.line i] [.line j] := by
      rw [hj]
      exact echoes_line k i
    have hnext : j + 1 = i + 1 + k := by omega
    cases depth with
    | zero =>
      rw [readBlock, readBlock, ← hfirst, ← hlone, hafter]
      by_cases hc : line.first = blockClose
      · rw [if_pos hc, if_pos hc]
        exact (Traced.echoes_pure k f e).after hseen
      · rw [if_neg hc, if_neg hc, if_neg (not_not_intro rfl), if_neg (not_not_intro rfl)]
        refine Traced.Echoes.after ?_ hseen
        by_cases hd : detached = true ∧ line.isLoneOpen = true
        · rw [if_pos hd, if_pos hd]
          exact ih isRoot e 1 false 0 (i + 1) (j + 1) hnext
        · rw [if_neg hd, if_neg hd, Statement.ofLine_of_tokens hline isRoot]
          cases Statement.ofLine isRoot line with
          | property name value =>
            show (readBlock catalog isRoot (e.addProperty _) _ false _ lines).Echoes k f
              (readBlock catalog' isRoot ((f e).addProperty _) _ false _ lines')
            rw [← h.addProperty]
            exact ih isRoot _ _ false 0 (i + 1) (j + 1) hnext
          | declareVariable name value =>
            show (readBlock catalog isRoot (e.addVariable _ _) _ false _ lines).Echoes k f
              (readBlock catalog' isRoot ((f e).addVariable _ _) _ false _ lines')
            rw [← h.addVariable]
            exact ih isRoot _ _ false 0 (i + 1) (j + 1) hnext
          | rejected problem =>
            exact (ih isRoot e _ false 0 (i + 1) (j + 1) hnext).after (echoes_problem k rfl rfl)
          | unclosed bracket => exact Traced.echoes_abandon k f rfl
          | child typeName name? detached =>
            show ((readChild catalog _ detached (i + 1) lines).bind _).Echoes k f
              ((readChild catalog' (.ofHeader catalog' typeName name?) detached (j + 1) lines').bind _)
            rw [← h.ofHeader]
            refine (readChild_echoes hlines (ih false _ 0 false) detached hnext).bind fun c => ?_
            rw [← h.addChild]
            exact ih isRoot (e.addChild c) _ detached 0 (i + 1) (j + 1) hnext
    | succ depth =>
      rw [readBlock, readBlock, ← hfirst, ← hopens]
      by_cases hc : line.first = blockClose
      · rw [if_pos hc, if_pos hc]
        exact (ih isRoot e depth detached 0 (i + 1) (j + 1) hnext).after hseen
      · rw [if_neg hc, if_neg hc, if_pos (Nat.succ_ne_zero depth), if_pos (Nat.succ_ne_zero depth)]
        exact (ih isRoot e _ detached 0 (i + 1) (j + 1) hnext).after hseen
termination_by lines.length
decreasing_by
  rw [List.length_drop, List.length_cons]
  omega

end

/-! ## the elements of headers -/

def DeclaredElement.mapRoot (f : Element → Element) (e : DeclaredElement) : DeclaredElement :=
  { e with root := f e.root }

/-- the header of the same declaration, `k` lines further down -/
structure Header.IsLowered (k : Nat) (h h' : Header) : Prop where
  name : h'.name = h.name
  file : h'.file = h.file
  start : h'.start = h.start + k

theorem Header.isLowered_zero (h : Header) : h.IsLowered 0 h := ⟨rfl, rfl, rfl⟩

theorem Header.build_echoes {catalog catalog' : Catalog} {f : Element → Element} {k : Nat}
    (hf : Retypes catalog catalog' f) {h h' : Header} (hh : h.IsLowered k h')
    (hroot : f (.bare h.name .userDefined) = .bare h.name .userDefined) {lines lines' : List Line}
    (ht : SameTokens lines (lines'.drop k)) :
    (h.build catalog lines).Echoes k (DeclaredElement.mapRoot f) (h'.build catalog' lines') := by
  have hstart : h'.start + 1 = h.start + 1 + k := by
    rw [hh.start, Nat.add_right_comm]
  have hdrop : lines'.drop (h'.start + 1) = (lines'.drop k).drop (h.start + 1) := by
    rw [List.drop_drop, hstart, Nat.add_comm]
  have hblock := readBlock_echoes hf true (.bare h.name .userDefined) 0 false hstart
    (ht.drop (h.start + 1))
  rw [hroot] at hblock
  rw [Header.build, Header.build, hdrop, hh.name, hh.file]
  refine Traced.Echoes.after ?_ (echoes_note k _ _)
  exact hblock.bind fun root => Traced.echoes_pure k (DeclaredElement.mapRoot f) ⟨root, h.file⟩

end Markup
