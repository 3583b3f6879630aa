import Markup.Event

/-!
# Readings compared

Two readings agree if they have the same result and report the same problems at the same lines, in
the same order.  Which lines they look at besides does not matter, so a reading that looks at a
line twice can agree with one that looks at it once.

* `linesSeen`          the lines that are looked at, in order;
* `reportsFrom`        the problems of a list of events, each with the line it lies on;
* `IsQuiet`            no problem is reported;
* `Traced.Agrees`        same result, same reports;
* `Traced.IsAnchored`    a reading that reports nothing before it looks at a line of its own;
* `Traced.Reads`        a reading that looks at certain lines only, at the last of them in the end.
-/

namespace Markup

/-! ## reports -/

def linesSeen : List Event → List Nat
  | [] => []
  | .line i :: events => i :: linesSeen events
  | .source _ _ :: events | .problem _ :: events | .note _ :: events => linesSeen events

/-- the problems of these events, each with its line; before them the line `index` is looked at -/
def reportsFrom (index : Nat) : List Event → List (Nat × Problem)
  | [] => []
  | .line i :: events => reportsFrom i events
  | .problem p :: events => (index, p) :: reportsFrom index events
  | .source _ _ :: events => reportsFrom 0 events
  | .note _ :: events => reportsFrom index events

def lineAfter (index : Nat) : List Event → Nat
  | [] => index
  | .line i :: events => lineAfter i events
  | .source _ _ :: events => lineAfter 0 events
  | .problem _ :: events | .note _ :: events => lineAfter index events

theorem reportsFrom_append (index : Nat) (xs ys : List Event) :
    reportsFrom index (xs ++ ys) = reportsFrom index xs ++ reportsFrom (lineAfter index xs) ys := by
  induction xs generalizing index with
  | nil => rfl
  | cons x xs ih =>
    cases x with
    | source _ _ => exact ih 0
    | line i => exact ih i
    | problem p => exact congrArg ((index, p) :: ·) (ih index)
    | note _ => exact ih index

theorem lineAfter_append (index : Nat) (xs ys : List Event) :
    lineAfter index (xs ++ ys) = lineAfter (lineAfter index xs) ys := by
  induction xs generalizing index with
  | nil => rfl
  | cons x xs ih => cases x <;> exact ih _

/-! ## readings without problems -/

/-- no event is a problem -/
def IsQuiet (events : List Event) : Prop := ∀ p, Event.problem p ∉ events

theorem isQuiet_nil : IsQuiet [] := fun _ hp => absurd hp List.not_mem_nil

theorem IsQuiet.cons {x : Event} {xs : List Event} (hx : ∀ p, Event.problem p ≠ x)
    (h : IsQuiet xs) : IsQuiet (x :: xs) :=
  fun p hp => h p ((List.mem_cons.mp hp).resolve_left (hx p))

theorem IsQuiet.tail {x : Event} {xs : List Event} (h : IsQuiet (x :: xs)) : IsQuiet xs :=
  fun p hp => h p (List.mem_cons_of_mem x hp)

theorem isQuiet_append {xs ys : List Event} : IsQuiet (xs ++ ys) ↔ IsQuiet xs ∧ IsQuiet ys := by
  unfold IsQuiet
  simp only [List.mem_append, not_or, forall_and]

theorem isQuiet_flatMap {α : Type} {g : α → List Event} {as : List α} :
    IsQuiet (as.flatMap g) ↔ ∀ a ∈ as, IsQuiet (g a) := by
  unfold IsQuiet
  simp only [List.mem_flatMap, not_exists, not_and]
  exact ⟨fun h a ha p => h p a ha, fun h p a ha => h a ha p⟩

theorem not_isQuiet_problem {p : Problem} {events : List Event} :
    ¬IsQuiet (.problem p :: events) := fun h => h p List.mem_cons_self

theorem isQuiet_iff (index : Nat) {events : List Event} :
    IsQuiet events ↔ reportsFrom index events = [] := by
  induction events generalizing index with
  | nil => exact ⟨fun _ => rfl, fun _ => isQuiet_nil⟩
  | cons x xs ih =>
    cases x with
    | problem q =>
      exact ⟨fun h => absurd h not_isQuiet_problem, fun h => absurd h (List.cons_ne_nil _ _)⟩
    | source _ _ | line _ | note _ =>
      exact ⟨fun h => (ih _).mp h.tail, fun h => IsQuiet.cons nofun ((ih _).mpr h)⟩

namespace Traced

variable {α β γ : Type}

theorem bind_assoc (r : Traced α) (f : α → Traced β) (g : β → Traced γ) :
    (r.bind f).bind g = r.bind fun a => (f a).bind g := by
  obtain ⟨events, result⟩ := r
  cases result with
  | error bracket => rfl
  | ok a =>
    show ((f a).after events).bind g = ((f a).bind g).after events
    exact after_bind events (f a) g

theorem events_bind_pure (r : Traced α) (f : α → β) :
    (r.bind fun a => pure (f a)).events = r.events := by
  obtain ⟨events, result⟩ := r
  cases result with
  | error bracket => rfl
  | ok a => exact List.append_nil events

theorem result_bind_eq_ok {r : Traced α} {f : α → Traced β} {b : β} :
    (r.bind f).result = .ok b ↔ ∃ a, r.result = .ok a ∧ (f a).result = .ok b := by
  obtain ⟨events, result⟩ := r
  cases result with
  | error bracket =>
    refine ⟨fun h => absurd h (by simp [bind]), ?_⟩
    rintro ⟨a, ha, _⟩
    exact absurd ha (by simp)
  | ok a =>
    refine ⟨fun h => ⟨a, rfl, h⟩, ?_⟩
    rintro ⟨a', ha, h⟩
    obtain rfl := Except.ok.inj ha
    exact h

theorem events_bind_of_ok {r : Traced α} {a : α} (h : r.result = .ok a) (f : α → Traced β) :
    (r.bind f).events = r.events ++ (f a).events := by
  obtain ⟨events, result⟩ := r
  obtain rfl : result = .ok a := h
  rfl

theorem bind_pure (r : Traced α) : r.bind pure = r := by
  obtain ⟨events, result⟩ := r
  cases result with
  | error bracket => rfl
  | ok a =>
    show Traced.mk (events ++ []) _ = _
    rw [List.append_nil]
    rfl

/-! ## agreement -/

/-- the same result, and the same problems at the same lines, whatever line is looked at before -/
def Agrees (r s : Traced α) : Prop :=
  r.result = s.result ∧ ∀ index, reportsFrom index r.events = reportsFrom index s.events

/-- a reading that looks at a line before it reports anything -/
def IsAnchored (r : Traced α) : Prop :=
  ∀ i j, reportsFrom i r.events = reportsFrom j r.events

theorem Agrees.refl (r : Traced α) : r.Agrees r := ⟨rfl, fun _ => rfl⟩

theorem Agrees.symm {r s : Traced α} (h : r.Agrees s) : s.Agrees r :=
  ⟨h.1.symm, fun i => (h.2 i).symm⟩

theorem Agrees.trans {r s t : Traced α} (h : r.Agrees s) (h' : s.Agrees t) : r.Agrees t :=
  ⟨h.1.trans h'.1, fun i => (h.2 i).trans (h'.2 i)⟩

theorem Agrees.isQuiet {r s : Traced α} (h : r.Agrees s) : IsQuiet r.events ↔ IsQuiet s.events := by
  rw [isQuiet_iff 0, isQuiet_iff 0, h.2]

theorem Agrees.after {r s : Traced α} (h : r.Agrees s) (events : List Event) :
    (r.after events).Agrees (s.after events) := by
  refine ⟨h.1, fun i => ?_⟩
  show reportsFrom i (events ++ r.events) = reportsFrom i (events ++ s.events)
  rw [reportsFrom_append, reportsFrom_append, h.2]

theorem Agrees.bind_right (r : Traced α) {f g : α → Traced β} (h : ∀ a, (f a).Agrees (g a)) :
    (r.bind f).Agrees (r.bind g) := by
  obtain ⟨events, result⟩ := r
  cases result with
  | error bracket => exact Agrees.refl _
  | ok a => exact (h a).after events

theorem Agrees.bind_left {r s : Traced α} (h : r.Agrees s) {f : α → Traced β}
    (hf : ∀ a, (f a).IsAnchored) : (r.bind f).Agrees (s.bind f) := by
  obtain ⟨xs, result⟩ := r
  obtain ⟨ys, result'⟩ := s
  obtain ⟨rfl, he⟩ : result = result' ∧ ∀ i, reportsFrom i xs = reportsFrom i ys := h
  cases result with
  | error bracket => exact ⟨rfl, he⟩
  | ok a =>
    refine ⟨rfl, fun i => ?_⟩
    show reportsFrom i (xs ++ (f a).events) = reportsFrom i (ys ++ (f a).events)
    rw [reportsFrom_append, reportsFrom_append, he, hf a (lineAfter i xs) (lineAfter i ys)]

theorem isAnchored_pure (a : α) : (pure a).IsAnchored := fun _ _ => rfl

theorem isAnchored_after_line (index : Nat) (r : Traced α) :
    (r.after [.line index]).IsAnchored := fun _ _ => rfl

/-- looking at a line does not matter to what looks at a line of its own -/
theorem IsAnchored.after_line_agrees {r : Traced α} (h : r.IsAnchored) (index : Nat) :
    (r.after [.line index]).Agrees r := ⟨rfl, fun i => h index i⟩

end Traced

/-! ## the lines of a reading -/

/-- an event that lies within a source, and between these lines if it looks at one -/
def Event.IsWithin (first stop : Nat) : Event → Prop
  | .line i => first ≤ i ∧ i < stop
  | .source _ _ => False
  | .problem _ | .note _ => True

section
variable {first stop : Nat}

theorem Event.IsWithin.mono {first' stop' : Nat} (hf : first' ≤ first) (hs : stop ≤ stop')
    {x : Event} (h : x.IsWithin first stop) : x.IsWithin first' stop' := by
  cases x with
  | line i => exact ⟨Nat.le_trans hf h.1, Nat.lt_of_lt_of_le h.2 hs⟩
  | source _ _ => exact h
  | problem _ | note _ => trivial

variable {events : List Event} (h : ∀ x ∈ events, x.IsWithin first stop)
include h

theorem linesSeen_within : ∀ i ∈ linesSeen events, first ≤ i ∧ i < stop := by
  induction events with
  | nil => exact fun i hi => absurd hi List.not_mem_nil
  | cons x xs ih =>
    obtain ⟨hx, hxs⟩ := List.forall_mem_cons.mp h
    cases x with
    | line j =>
      intro i hi
      rcases List.mem_cons.mp hi with rfl | hi
      · exact hx
      · exact ih hxs i hi
    | source _ _ => exact hx.elim
    | problem _ | note _ => exact ih hxs

theorem lineAfter_within (k : Nat) :
    lineAfter k events = k ∨ first ≤ lineAfter k events ∧ lineAfter k events < stop := by
  induction events generalizing k with
  | nil => exact Or.inl rfl
  | cons x xs ih =>
    obtain ⟨hx, hxs⟩ := List.forall_mem_cons.mp h
    cases x with
    | line j =>
      rcases ih hxs j with he | hw
      · refine Or.inr ?_
        rw [lineAfter, he]
        exact hx
      · exact Or.inr hw
    | source _ _ => exact hx.elim
    | problem _ | note _ => exact ih hxs k

theorem reportsFrom_within (k : Nat) :
    ∀ entry ∈ reportsFrom k events, entry.1 = k ∨ first ≤ entry.1 ∧ entry.1 < stop := by
  induction events generalizing k with
  | nil => exact fun entry he => absurd he List.not_mem_nil
  | cons x xs ih =>
    obtain ⟨hx, hxs⟩ := List.forall_mem_cons.mp h
    intro entry he
    cases x with
    | line j =>
      rcases ih hxs j entry he with hj | hw
      · refine Or.inr ?_
        rw [hj]
        exact hx
      · exact Or.inr hw
    | source _ _ => exact hx.elim
    | problem p =>
      rcases List.mem_cons.mp he with rfl | he
      · exact Or.inl rfl
      · exact ih hxs k entry he
    | note _ => exact ih hxs k entry he

end

namespace Traced

variable {α β : Type} {first count : Nat}

/-- a reading that looks at no line but the `count` lines from `first` on; unless a bracket ends it,
it looks at the last of them in the end -/
structure Reads (first count : Nat) (r : Traced α) : Prop where
  within : ∀ x ∈ r.events, x.IsWithin first (first + count)
  last : ∀ a, r.result = .ok a → ∀ k, count ≠ 0 ∨ k + 1 = first →
    lineAfter k r.events + 1 = first + count

theorem reads_pure (a : α) (first : Nat) : (pure a).Reads first 0 :=
  ⟨fun _ hx => absurd hx List.not_mem_nil, fun _ _ _ hk => hk.elim (absurd rfl) id⟩

theorem Reads.after_line {r : Traced α} (h : r.Reads (first + 1) count) :
    (r.after [.line first]).Reads first (count + 1) := by
  refine ⟨fun x hx => ?_, fun a ha k _ => ?_⟩
  · rcases List.mem_cons.mp hx with rfl | hx
    · exact ⟨Nat.le_refl _, by omega⟩
    · exact (h.within x hx).mono (Nat.le_succ _) (by omega)
  · have hl := h.last a ha first (Or.inr rfl)
    show lineAfter first r.events + 1 = _
    omega

theorem reads_abandon (bracket : Unclosed) (first count : Nat) :
    ((abandon bracket : Traced α).after [.line first]).Reads first (count + 1) := by
  refine ⟨fun x hx => ?_, fun a ha => ?_⟩
  · rcases List.mem_cons.mp hx with rfl | hx
    · exact ⟨Nat.le_refl _, by omega⟩
    · exact absurd hx List.not_mem_nil
  · exact absurd ha (by simp [after, abandon])

theorem Reads.after_problem {r : Traced α} (h : r.Reads first count) (p : Problem) :
    (r.after [.problem p]).Reads first count := by
  refine ⟨fun x hx => ?_, h.last⟩
  rcases List.mem_cons.mp hx with rfl | hx
  · trivial
  · exact h.within x hx

theorem Reads.bind {r : Traced α} (hr : ∀ x ∈ r.events, x.IsWithin first (first + count))
    {f : α → Traced β} (hf : ∀ a, (f a).Reads first count) : (r.bind f).Reads first count := by
  obtain ⟨events, result⟩ := r
  cases result with
  | error bracket => exact ⟨hr, fun a ha => absurd ha (by simp [Traced.bind])⟩
  | ok a =>
    refine ⟨fun x hx => ?_, fun b hb k hk => ?_⟩
    · rcases List.mem_append.mp hx with hx | hx
      · exact hr x hx
      · exact (hf a).within x hx
    · show lineAfter k (events ++ (f a).events) + 1 = _
      rw [lineAfter_append]
      have h : lineAfter k events = k ∨
          first ≤ lineAfter k events ∧ lineAfter k events < first + count :=
        lineAfter_within hr k
      exact (hf a).last b hb _ (by omega)

theorem Reads.bind_pure {r : Traced α} (h : r.Reads first count) (f : α → β) :
    (r.bind fun a => pure (f a)).Reads first count := by
  obtain ⟨events, result⟩ := r
  cases result with
  | error bracket => exact ⟨h.within, fun a ha => absurd ha (by simp [Traced.bind])⟩
  | ok a =>
    refine ⟨fun x hx => h.within x ?_, fun b _ k hk => ?_⟩
    · rwa [events_bind_pure] at hx
    · rw [events_bind_pure]
      exact h.last a rfl k hk

end Traced
end Markup
