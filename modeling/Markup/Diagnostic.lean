import Markup.Event

/-!
# Diagnostics

A diagnostic is a problem with its place: the source, the line in it, and the text of that line.
`Diagnostics` collects them from the events of a reading, in the order of the events.

A place beyond the lines of its source has line number 0 and no text.
-/

namespace Markup

/-! ## places -/

/-- a place in a source, beyond its lines too -/
structure Position where
  file : String := ""
  lines : List Line := []
  index : Nat := 0
  deriving DecidableEq, Repr

namespace Position

def line (p : Position) : Nat := (p.lines[p.index]?.map Line.number).getD 0

def text (p : Position) : String := (p.lines[p.index]?.map Line.text).getD ""

/-- the place that is looked at after an event -/
def after (p : Position) : Event → Position
  | .source file lines => ⟨file, lines, 0⟩
  | .line index => { p with index := index }
  | .problem _ | .note _ => p

end Position

/-! ## diagnostics -/

/-- a message to the author of a source, with its place -/
structure Diagnostic where
  file : String
  /-- the place among the lines of the source -/
  lineIndex : Nat
  /-- the source line number -/
  line : Nat
  /-- the text of the line -/
  source : String
  message : String
  severity : Severity
  deriving DecidableEq, Repr

def Severity.text : Severity → String
  | error => "error"
  | fatal => "fatal error"

/-- the diagnostic as it is shown: its place, its message, and below them the line -/
def Diagnostic.text (d : Diagnostic) : String :=
  d.file ++ ":" ++ toString d.line ++ ": " ++ d.severity.text ++ ": " ++ d.message ++
    if d.source = "" then "" else "\n    | " ++ d.source

/-- the diagnostics of a reading so far, and the place it looks at -/
structure Diagnostics where
  position : Position := {}
  entries : Array Diagnostic := #[]
  deriving DecidableEq, Repr

namespace Diagnostics

/-- one more message, at the place that is looked at -/
def report (ds : Diagnostics) (severity : Severity) (message : String) : Diagnostics :=
  let p := ds.position
  { ds with entries := ds.entries.push ⟨p.file, p.index, p.line, p.text, message, severity⟩ }

def after (ds : Diagnostics) (event : Event) : Diagnostics :=
  match event with
  | .problem problem => ds.report problem.severity problem.message
  | _ => { ds with position := ds.position.after event }

def ofEvents (events : List Event) : List Diagnostic := (events.foldl after {}).entries.toList

/-- what to say of diagnostics that make a reading fail -/
def summary (count : Nat) : String := toString count ++ " error(s) while parsing markup"

end Diagnostics

/-! ## notes -/

/-- the notes of a reading that looks at this place before its events; each problem leaves one -/
def notesFrom (p : Position) : List Event → List Note
  | [] => []
  | .note note :: events => note :: notesFrom p events
  | .problem problem :: events => .reported p.file p.line problem :: notesFrom p events
  | event :: events => notesFrom (p.after event) events

def notes (events : List Event) : List Note := notesFrom {} events

end Markup
