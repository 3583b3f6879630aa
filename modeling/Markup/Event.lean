import Markup.Line
import Markup.Log

/-!
# Events

Reading a batch is followed from outside by its events: which source it turns to, which line it
looks at, which problem it finds there and which notes it takes.  The events are all that is known
of a problem's place: it lies on the line of the last `Event.line`, in the source of the last
`Event.source`.

`Traced` is the result of a reading together with its events; an unclosed bracket ends a reading
early, and the events up to it remain.
-/

namespace Markup

/-- a step of reading a batch, as seen from outside -/
inductive Event where
  /-- the source that is read from here on, and its lines -/
  | source (file : String) (lines : List Line)
  /-- the line that is looked at, by its place among the lines of the source -/
  | line (index : Nat)
  /-- something is wrong with the line -/
  | problem (problem : Problem)
  /-- something worth a line in the log -/
  | note (note : Note)
  deriving DecidableEq, Repr

/-- the events of a reading, and its result unless a bracket ended it -/
structure Traced (α : Type) where
  events : List Event
  result : Except Unclosed α

namespace Traced

variable {α β : Type}

def pure (a : α) : Traced α := ⟨[], .ok a⟩

def abandon (bracket : Unclosed) : Traced α := ⟨[], .error bracket⟩

def after (events : List Event) (r : Traced α) : Traced α := ⟨events ++ r.events, r.result⟩

/-- a reading followed by another one that needs its result -/
def bind (r : Traced α) (f : α → Traced β) : Traced β :=
  match r.result with
  | .ok a => (f a).after r.events
  | .error bracket => ⟨r.events, .error bracket⟩

theorem pure_bind (a : α) (f : α → Traced β) : (pure a).bind f = f a := rfl

theorem after_bind (events : List Event) (r : Traced α) (f : α → Traced β) :
    (r.after events).bind f = (r.bind f).after events := by
  cases h : r.result <;> simp [bind, after, h]

end Traced
end Markup
