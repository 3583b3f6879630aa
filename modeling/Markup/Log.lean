import Markup.Problem
import Markup.Text.Plain

/-!
# The log

While a batch is read, notes are taken of what happens.  A note has a level and names the component
that takes it; `Note.record` is its line in the log, in plain text whatever the names and texts that
the note quotes.  A log shows the notes up to a chosen level.
-/

namespace Markup

/-! ## levels -/

/-- how much a log shows; a note is of any level but `off` -/
inductive LogLevel where
  | off
  | error
  | warn
  | info
  | debug
  | trace
  deriving DecidableEq, Repr

namespace LogLevel

/-- a level shows itself and every level of lower rank -/
def rank : LogLevel → Nat
  | off => 0
  | error => 1
  | warn => 2
  | info => 3
  | debug => 4
  | trace => 5

/-- the name of a level in a record, five characters wide -/
def label : LogLevel → String
  | off => "OFF  "
  | error => "ERROR"
  | warn => "WARN "
  | info => "INFO "
  | debug => "DEBUG"
  | trace => "TRACE"

/-- a letter of the English alphabet in lower case, any other character as it is -/
def lower (c : Char) : Char :=
  if 'A' ≤ c ∧ c ≤ 'Z' then Char.ofNat (c.toNat + 32) else c

/-- the level of a name, in letters of either case -/
def ofName? (name : String) : Option LogLevel :=
  match String.ofList (name.toList.map lower) with
  | "off" => some off
  | "error" => some error
  | "warn" => some warn
  | "info" => some info
  | "debug" => some debug
  | "trace" => some trace
  | _ => none

end LogLevel

/-! ## notes -/

/-- something worth a line in the log -/
inductive Note where
  /-- a batch of so many sources is about to be read -/
  | reading (count : Nat)
  /-- a source was cut into so many lines -/
  | scanned (count : Nat)
  /-- a source was passed over, since the batch has one of this name already -/
  | duplicate (file : String)
  /-- the declarations of a source are about to be read -/
  | outlining (file : String) (count : Nat)
  /-- an element is declared on a source line -/
  | found (element file : String) (line : Nat)
  /-- a constant was given up -/
  | constantAbandoned (bracket : Unclosed)
  /-- the body of an element is about to be read -/
  | building (element file : String)
  /-- an element was given up -/
  | elementAbandoned (element : String) (bracket : Unclosed)
  /-- a problem was reported at a source line -/
  | reported (file : String) (line : Nat) (problem : Problem)
  deriving DecidableEq, Repr

namespace Note

/-- the least level at which a log shows the note -/
def level : Note → LogLevel
  | scanned _ | found _ _ _ => .trace
  | duplicate _ => .warn
  | _ => .debug

def component : Note → String
  | reading _ => "kml"
  | scanned _ => "kml_lexer::scanner"
  | duplicate _ | outlining _ _ | elementAbandoned _ _ => "kml_parser"
  | found _ _ _ | constantAbandoned _ => "kml_parser::structure"
  | building _ _ => "kml_parser::builder"
  | reported _ _ _ => "kml_parser::report"

def message : Note → String
  | reading count => "parsing " ++ toString count ++ " file(s)"
  | scanned count => "scanned " ++ toString count ++ " lines"
  | duplicate file => "ignoring duplicate file " ++ Problem.quoted file
  | outlining file count => "reading " ++ file ++ " (" ++ toString count ++ " lines)"
  | found element file line =>
    "found element " ++ Problem.quoted element ++ " at " ++ file ++ ":" ++ toString line
  | constantAbandoned bracket =>
    "constant abandoned at line " ++ toString bracket.line ++ ": " ++ bracket.message
  | building element file => "building element " ++ Problem.quoted element ++ " from " ++ file
  | elementAbandoned element bracket =>
    "element " ++ Problem.quoted element ++ " abandoned at line " ++ toString bracket.line ++
      ": " ++ bracket.message
  | reported file line problem => file ++ ":" ++ toString line ++ ": " ++ problem.message

/-- text whose lines after the first are set in by four spaces -/
def hanging (text : String) : String :=
  String.ofList (text.toList.flatMap fun c => if c = '\n' then "\n    ".toList else [c])

/-- the record of the note; a control that its message leaves unfinished may take its end along -/
def record (n : Note) : String :=
  plainText ("[" ++ n.level.label ++ " " ++ n.component ++ "] " ++ hanging n.message ++ "\n")

/-- what a log of some level shows of the notes taken -/
def log (level : LogLevel) (notes : List Note) : String :=
  String.join ((notes.filter fun n => n.level.rank ≤ level.rank).map record)

end Note
end Markup
