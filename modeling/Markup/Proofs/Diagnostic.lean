import Markup.Diagnostic
import Markup.Proofs.Event

/-!
# The place of a diagnostic

A diagnostic carries the place that is looked at when its problem is found.  Events that turn to a
source before they report anything have the same diagnostics wherever they stand (`IsPlaced`), and
events that turn to no other source have diagnostics of one source only
(`Diagnostics.file_of_mem_source`).
-/

namespace Markup

/-- an event that does not turn to another source -/
def Event.IsLocal : Event → Prop
  | .source _ _ => False
  | .line _ | .problem _ | .note _ => True

theorem Event.IsWithin.isLocal {first stop : Nat} {x : Event} (h : x.IsWithin first stop) :
    x.IsLocal := by
  cases x with
  | source _ _ => exact h
  | line _ | problem _ | note _ => trivial

namespace Diagnostics

/-- the diagnostics of these events; before them this place is looked at -/
def fromPlace (p : Position) : List Event → List Diagnostic
  | [] => []
  | .problem q :: events =>
    ⟨p.file, p.index, p.line, p.text, q.message, q.severity⟩ :: fromPlace p events
  | x :: events => fromPlace (p.after x) events

theorem ofEvents_eq (events : List Event) : ofEvents events = fromPlace {} events := by
  have hfold : ∀ ds : Diagnostics, (events.foldl after ds).entries.toList =
      ds.entries.toList ++ fromPlace ds.position events := by
    induction events with
    | nil => exact fun ds => (List.append_nil _).symm
    | cons x xs ih =>
      intro ds
      rw [List.foldl_cons, ih]
      cases x with
      | problem q => simp [after, report, fromPlace]
      | source _ _ | line _ | note _ => rfl
  rw [ofEvents, hfold]
  rfl

theorem fromPlace_append (p : Position) (xs ys : List Event) :
    fromPlace p (xs ++ ys) = fromPlace p xs ++ fromPlace (xs.foldl Position.after p) ys := by
  induction xs generalizing p with
  | nil => rfl
  | cons x xs ih =>
    cases x with
    | problem q => exact congrArg (_ :: ·) (ih p)
    | source _ _ | line _ | note _ => exact ih _

theorem ofEvents_eq_nil {events : List Event} : ofEvents events = [] ↔ IsQuiet events := by
  have hplace : ∀ p, fromPlace p events = [] ↔ IsQuiet events := by
    induction events with
    | nil => exact fun _ => ⟨fun _ => isQuiet_nil, fun _ => rfl⟩
    | cons x xs ih =>
      intro p
      cases x with
      | problem q =>
        exact ⟨fun h => absurd h (List.cons_ne_nil _ _), fun h => absurd h not_isQuiet_problem⟩
      | source _ _ | line _ | note _ =>
        exact ⟨fun h => IsQuiet.cons nofun ((ih _).mp h), fun h => (ih _).mpr h.tail⟩
  rw [ofEvents_eq]
  exact hplace {}

theorem file_of_mem {p : Position} {events : List Event} (h : ∀ x ∈ events, x.IsLocal)
    {d : Diagnostic} (hd : d ∈ fromPlace p events) : d.file = p.file := by
  induction events generalizing p with
  | nil => exact absurd hd List.not_mem_nil
  | cons x xs ih =>
    obtain ⟨hx, hxs⟩ := List.forall_mem_cons.mp h
    cases x with
    | source _ _ => exact hx.elim
    | line i =>
      have hfile : d.file = (p.after (.line i)).file := ih hxs hd
      exact hfile
    | problem q =>
      rcases List.mem_cons.mp hd with rfl | hd
      · rfl
      · exact ih hxs hd
    | note _ => exact ih hxs hd

/-- what is found in a source is stamped with its name -/
theorem file_of_mem_source {file : String} {lines : List Line} {events : List Event}
    (h : ∀ x ∈ events, x.IsLocal) {d : Diagnostic}
    (hd : d ∈ ofEvents (.source file lines :: events)) : d.file = file := by
  rw [ofEvents_eq] at hd
  exact file_of_mem (p := ⟨file, lines, 0⟩) h hd

end Diagnostics

/-! ## events that stand anywhere -/

/-- the place that is looked at before these events does not matter -/
def IsPlaced (events : List Event) : Prop :=
  ∀ p, Diagnostics.fromPlace p events = Diagnostics.ofEvents events

variable {xs ys : List Event}

theorem isPlaced_nil : IsPlaced [] := fun _ => rfl

theorem isPlaced_source (file : String) (lines : List Line) (events : List Event) :
    IsPlaced (.source file lines :: events) := by
  intro p
  rw [Diagnostics.ofEvents_eq]
  rfl

theorem IsPlaced.note (h : IsPlaced xs) (note : Note) : IsPlaced (.note note :: xs) := by
  intro p
  rw [Diagnostics.ofEvents_eq]
  exact (h p).trans (h {}).symm

theorem ofEvents_notes (notes : List Note) : Diagnostics.ofEvents (notes.map .note) = [] := by
  rw [Diagnostics.ofEvents_eq]
  induction notes with
  | nil => rfl
  | cons note notes ih => exact ih

theorem ofEvents_append (h : IsPlaced ys) :
    Diagnostics.ofEvents (xs ++ ys) = Diagnostics.ofEvents xs ++ Diagnostics.ofEvents ys := by
  rw [Diagnostics.ofEvents_eq, Diagnostics.fromPlace_append, h, ← Diagnostics.ofEvents_eq]

theorem IsPlaced.append (h : IsPlaced xs) (h' : IsPlaced ys) : IsPlaced (xs ++ ys) := by
  intro p
  rw [ofEvents_append h', Diagnostics.fromPlace_append, h, h']

section
variable {α : Type} {g : α → List Event} (h : ∀ a, IsPlaced (g a))
include h

theorem isPlaced_flatMap (as : List α) : IsPlaced (as.flatMap g) := by
  induction as with
  | nil => exact isPlaced_nil
  | cons a as ih => exact (h a).append ih

theorem ofEvents_flatMap (as : List α) :
    Diagnostics.ofEvents (as.flatMap g) = as.flatMap fun a => Diagnostics.ofEvents (g a) := by
  induction as with
  | nil => rfl
  | cons a as ih =>
    rw [List.flatMap_cons, List.flatMap_cons, ofEvents_append (isPlaced_flatMap h as), ih]

end

end Markup
