import Markup.Proofs.Diagnostic
import Mathlib.Data.List.Forall2

/-!
# Readings that echo each other

A remark is what a diagnostic says, apart from what it takes from the lines of its source.  One
reading echoes another if it makes the same remarks on the lines that lie so many places further
down; the numbers of the lines do not matter, not even for a bracket without a partner.

* `remarksFrom`         the remarks of a list of events;
* `fromPlace_eq`        the diagnostics of a source are its remarks with its lines;
* `LooksFirst`          events that look at a line before they report anything;
* `Echoes`              events that echo others, closed under the ways to put events together;
* `Traced.Echoes`       readings that echo others, with results that correspond.
-/

namespace Markup

/-! ## remarks -/

/-- what is said of the line at some place -/
structure Remark where
  index : Nat
  message : String
  severity : Severity
  deriving DecidableEq, Repr

namespace Remark

def ofProblem (index : Nat) (p : Problem) : Remark := ⟨index, p.message, p.severity⟩

/-- the same remark on the line `k` places further down -/
def lowered (k : Nat) (r : Remark) : Remark := { r with index := r.index + k }

/-- the remark as a diagnostic of a source with these lines -/
def diagnostic (file : String) (lines : List Line) (r : Remark) : Diagnostic where
  file := file
  lineIndex := r.index
  line := Position.line ⟨file, lines, r.index⟩
  source := Position.text ⟨file, lines, r.index⟩
  message := r.message
  severity := r.severity

end Remark

/-- the remarks of these events; before them the line `index` is looked at -/
def remarksFrom (index : Nat) (events : List Event) : List Remark :=
  (reportsFrom index events).map fun r => .ofProblem r.1 r.2

theorem remarksFrom_append (index : Nat) (xs ys : List Event) :
    remarksFrom index (xs ++ ys) = remarksFrom index xs ++ remarksFrom (lineAfter index xs) ys := by
  rw [remarksFrom, reportsFrom_append, List.map_append]
  rfl

namespace Diagnostics

theorem fromPlace_eq {events : List Event} (h : ∀ x ∈ events, x.IsLocal) (p : Position) :
    fromPlace p events = (remarksFrom p.index events).map (Remark.diagnostic p.file p.lines) := by
  induction events generalizing p with
  | nil => rfl
  | cons x xs ih =>
    obtain ⟨hx, hxs⟩ := List.forall_mem_cons.mp h
    cases x with
    | source _ _ => exact hx.elim
    | line i => exact ih hxs { p with index := i }
    | problem q => exact congrArg (_ :: ·) (ih hxs p)
    | note _ => exact ih hxs p

theorem ofEvents_source (file : String) (lines : List Line) {events : List Event}
    (h : ∀ x ∈ events, x.IsLocal) : ofEvents (.source file lines :: events) =
      (remarksFrom 0 events).map (Remark.diagnostic file lines) := by
  rw [ofEvents_eq]
  exact fromPlace_eq h ⟨file, lines, 0⟩

end Diagnostics

/-! ## events that look at a line first -/

/-- the line that is looked at before these events does not matter -/
def LooksFirst (events : List Event) : Prop := ∀ i j, reportsFrom i events = reportsFrom j events

section
variable {xs ys : List Event}

theorem looksFirst_nil : LooksFirst [] := fun _ _ => rfl

theorem looksFirst_line (index : Nat) (events : List Event) : LooksFirst (.line index :: events) :=
  fun _ _ => rfl

theorem LooksFirst.append (h : LooksFirst xs) (h' : LooksFirst ys) : LooksFirst (xs ++ ys) := by
  intro i j
  rw [reportsFrom_append, reportsFrom_append, h i j, h' (lineAfter i xs) (lineAfter j xs)]

theorem looksFirst_flatMap {α : Type} {g : α → List Event} {as : List α}
    (h : ∀ a ∈ as, LooksFirst (g a)) : LooksFirst (as.flatMap g) := by
  induction as with
  | nil => exact looksFirst_nil
  | cons a as ih =>
    obtain ⟨ha, has⟩ := List.forall_mem_cons.mp h
    rw [List.flatMap_cons]
    exact ha.append (ih has)

theorem LooksFirst.remarksFrom_eq (h : LooksFirst xs) (i j : Nat) :
    remarksFrom i xs = remarksFrom j xs := by
  rw [remarksFrom, h i j]
  rfl

theorem LooksFirst.index_lt (h : LooksFirst xs) {n : Nat} (hw : ∀ x ∈ xs, x.IsWithin 0 n) (i : Nat) :
    ∀ r ∈ remarksFrom i xs, r.index < n := by
  intro r hr
  rw [h.remarksFrom_eq i (r.index + 1)] at hr
  obtain ⟨entry, hentry, rfl⟩ := List.mem_map.mp hr
  have hin := reportsFrom_within hw _ entry hentry
  have hindex : (Remark.ofProblem entry.1 entry.2).index = entry.1 := rfl
  omega

end

/-! ## echoes -/

/-- the events `ys` say of the lines `k` places further down what the events `xs` say -/
structure Echoes (k : Nat) (xs ys : List Event) : Prop where
  remarks : ∀ i, remarksFrom (i + k) ys = (remarksFrom i xs).map (Remark.lowered k)
  line : ∀ i, lineAfter (i + k) ys = lineAfter i xs + k

section
variable {k : Nat} {xs ys xs' ys' : List Event}

theorem echoes_nil (k : Nat) : Echoes k [] [] := ⟨fun _ => rfl, fun _ => rfl⟩

theorem Echoes.append (h : Echoes k xs ys) (h' : Echoes k xs' ys') :
    Echoes k (xs ++ xs') (ys ++ ys') := by
  constructor
  · intro i
    rw [remarksFrom_append, remarksFrom_append, List.map_append, h.remarks, h.line, h'.remarks]
  · intro i
    rw [lineAfter_append, lineAfter_append, h.line, h'.line]

theorem echoes_line (k index : Nat) : Echoes k [.line index] [.line (index + k)] :=
  ⟨fun _ => rfl, fun _ => rfl⟩

theorem echoes_note (k : Nat) (note note' : Note) : Echoes k [.note note] [.note note'] :=
  ⟨fun _ => rfl, fun _ => rfl⟩

theorem echoes_problem (k : Nat) {p q : Problem} (hm : p.message = q.message)
    (hs : p.severity = q.severity) : Echoes k [.problem p] [.problem q] := by
  constructor
  · intro i
    show [Remark.mk (i + k) q.message q.severity] = [Remark.mk (i + k) p.message p.severity]
    rw [hm, hs]
  · intro i
    rfl

/-- the line of a bracket is not in its message -/
theorem echoes_unclosed (k : Nat) {b b' : Unclosed} (h : b'.bracket = b.bracket) :
    Echoes k [.problem (.unclosedBracket b)] [.problem (.unclosedBracket b')] := by
  have hm : b.message = b'.message := by
    unfold Unclosed.message
    rw [h]
  exact echoes_problem k hm rfl

theorem echoes_flatMap {α β : Type} {R : α → β → Prop} {g : α → List Event} {g' : β → List Event}
    (hg : ∀ a b, R a b → Echoes k (g a) (g' b)) {as : List α} {bs : List β}
    (h : List.Forall₂ R as bs) : Echoes k (as.flatMap g) (bs.flatMap g') := by
  induction h with
  | nil => exact echoes_nil k
  | cons hab _ ih =>
    rw [List.flatMap_cons, List.flatMap_cons]
    exact (hg _ _ hab).append ih

end

namespace Traced

variable {α β γ δ : Type} {k : Nat}

/-- the reading `s` echoes `r`, and its result is that of `r` under `f`; of a bracket without a
partner the line may differ -/
structure Echoes (k : Nat) (f : α → β) (r : Traced α) (s : Traced β) : Prop where
  events : Markup.Echoes k r.events s.events
  result : s.result.mapError Unclosed.bracket = (r.result.map f).mapError Unclosed.bracket

variable {f : α → β} {r : Traced α} {s : Traced β}

theorem echoes_pure (k : Nat) (f : α → β) (a : α) : (pure a).Echoes k f (pure (f a)) :=
  ⟨echoes_nil k, rfl⟩

theorem echoes_abandon (k : Nat) (f : α → β) {b b' : Unclosed} (h : b'.bracket = b.bracket) :
    (abandon b).Echoes k f (abandon b') :=
  ⟨echoes_nil k, congrArg Except.error h⟩

theorem Echoes.after (h : r.Echoes k f s) {xs ys : List Event} (he : Markup.Echoes k xs ys) :
    (r.after xs).Echoes k f (s.after ys) :=
  ⟨he.append h.events, h.result⟩

theorem Echoes.result_cases (h : r.Echoes k f s) :
    (∃ a, r.result = .ok a ∧ s.result = .ok (f a)) ∨
      ∃ b b', r.result = .error b ∧ s.result = .error b' ∧ b'.bracket = b.bracket := by
  have hr := h.result
  cases hrr : r.result with
  | ok a =>
    cases hsr : s.result with
    | ok c =>
      rw [hrr, hsr] at hr
      obtain rfl : c = f a := Except.ok.inj hr
      exact Or.inl ⟨a, rfl, rfl⟩
    | error b =>
      rw [hrr, hsr] at hr
      exact absurd hr (by simp [Except.map, Except.mapError])
  | error b =>
    cases hsr : s.result with
    | ok c =>
      rw [hrr, hsr] at hr
      exact absurd hr (by simp [Except.map, Except.mapError])
    | error b' =>
      rw [hrr, hsr] at hr
      exact Or.inr ⟨b, b', rfl, rfl, Except.error.inj hr⟩

theorem Echoes.toOption (h : r.Echoes k f s) :
    s.result.toOption = r.result.toOption.map f := by
  obtain ⟨a, hr, hs⟩ | ⟨b, b', hr, hs, _⟩ := h.result_cases
  · rw [hr, hs]
    rfl
  · rw [hr, hs]
    rfl

theorem Echoes.bind (h : r.Echoes k f s) {g : α → Traced γ} {g' : β → Traced δ} {f' : γ → δ}
    (hg : ∀ a, (g a).Echoes k f' (g' (f a))) : (r.bind g).Echoes k f' (s.bind g') := by
  obtain ⟨a, hr, hs⟩ | ⟨b, b', hr, hs, hb⟩ := h.result_cases
  · have hrb : r.bind g = (g a).after r.events := by rw [Traced.bind, hr]
    have hsb : s.bind g' = (g' (f a)).after s.events := by rw [Traced.bind, hs]
    rw [hrb, hsb]
    exact (hg a).after h.events
  · have hrb : r.bind g = ⟨r.events, .error b⟩ := by rw [Traced.bind, hr]
    have hsb : s.bind g' = ⟨s.events, .error b'⟩ := by rw [Traced.bind, hs]
    rw [hrb, hsb]
    exact ⟨h.events, congrArg Except.error hb⟩

end Traced
end Markup
