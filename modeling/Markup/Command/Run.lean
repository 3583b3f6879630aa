import Markup.Batch
import Markup.Command.Arguments
import Markup.Listing

/-!
# Running a command

`CommandLine.answer` is what the program answers to a command line, given what its paths lead to:
the text on each of its two outputs, and an exit code, which is 0 for success, 1 for a source that
cannot be read or has problems, and 2 for a mistake in the command line.

Listings go to the standard output; messages, the log and diagnostics go to the error output.  The
paths are read in their order, and the first one that cannot be read ends the run before anything
else is done.
-/

namespace Markup

def version : String := "0.3.0"

inductive PathTarget where
  | missing
  | directory
  | file (bytes : ByteArray)
  /-- something that cannot be read -/
  | unreadable (reason : String)

/-- what a run leaves behind -/
structure Answer where
  exit : Nat
  stdout : String := ""
  stderr : String := ""
  deriving DecidableEq, Repr

namespace Answer

def failure (message : String) : Answer := { exit := 1, stderr := message }

/-- the run with some text before its error output -/
def after (message : String) (a : Answer) : Answer := { a with stderr := message ++ a.stderr }

end Answer

def usage : String :=
  rows [
    "KML: markup front-end for the UI toolkit",
    "",
    "Usage: kml [OPTIONS] <COMMAND>",
    "",
    "Commands:",
    "  check  Parse .kml files and report errors",
    "  tree   Print the element trees and constants of .kml files",
    "  lines  Print the tokenized lines of a .kml file",
    "  help   Print this message or the help of the given subcommand(s)",
    "",
    "Options:",
    "      --builtin <NAME>         Additional built-in element type names (repeatable)",
    "      --log-level <LOG_LEVEL>  Log level: off, error, warn, info, debug, trace [default: warn]",
    "  -h, --help                   Print help",
    "  -V, --version                Print version"]

/-! ## sources -/

/-- the text of the source at a path, or what to say if there is none -/
def sourceText (targets : String → PathTarget) (path : String) : Except String String :=
  match targets path with
  | .missing => .error ("Error: file not found: " ++ path ++ "\n")
  | .directory => .error ("Error reading " ++ path ++ ": Is a directory (os error 21)\n")
  | .unreadable reason => .error ("Error reading " ++ path ++ ": " ++ reason ++ "\n")
  | .file bytes =>
    match String.fromUTF8? bytes with
    | some s => .ok s
    | none => .error ("Error reading " ++ path ++ ": stream did not contain valid UTF-8\n")

/-- the sources at some paths, each under the name of its path -/
def sourceFiles (targets : String → PathTarget) : List String → Except String (List SourceFile)
  | [] => .ok []
  | path :: paths =>
    match sourceText targets path with
    | .error message => .error message
    | .ok content =>
      match sourceFiles targets paths with
      | .error message => .error message
      | .ok files => .ok (⟨path, content⟩ :: files)

/-! ## commands -/

/-- the level of the log by its name, and what to say if there is none of this name -/
def logLevel (name : String) : LogLevel × String :=
  match LogLevel.ofName? name with
  | some level => (level, "")
  | none => (.warn, "Invalid log level: " ++ name ++ ". Using 'warn' instead.\n")

/-- the diagnostics as they are shown, and their number -/
def diagnosticRows (ds : List Diagnostic) : String :=
  rows (ds.map Diagnostic.text ++ [toString ds.length ++ " error(s)"])

/-- a command that reads a batch and goes on if nothing is wrong with it -/
def onBatch (targets : String → PathTarget) (catalog : Catalog) (level : LogLevel)
    (paths : List String) (f : Declarations → Answer) : Answer :=
  match sourceFiles targets paths with
  | .error message => .failure message
  | .ok files =>
    let r := Batch.read catalog files
    let log := Note.log level (.reading files.length :: notes r.events)
    Answer.after log <|
      match Diagnostics.ofEvents r.events with
      | [] => f r.declarations
      | ds => .failure (diagnosticRows ds)

def checkAnswer (d : Declarations) : Answer :=
  { exit := 0
    stderr := rows ["OK: " ++ toString d.elements.length ++ " element(s), " ++
      toString d.constants.length ++ " constant(s)"] }

/-- the trees and constants of a batch; each value is cut into lines to find its shape -/
def treeAnswer (level : LogLevel) (d : Declarations) : Answer :=
  let values := d.elements.flatMap fun e => e.root.values
  { exit := 0
    stdout := d.listing
    stderr := Note.log level (values.map fun v => .scanned (Line.ofSource v).length) }

def linesAnswer (level : LogLevel) (groups : Bool) (source : String) : Answer :=
  let lines := Line.ofSource source
  { exit := 0
    stdout := Line.listing (if groups then lines.map Line.folded else lines)
    stderr := Note.log level [.scanned lines.length] }

def Action.answer (targets : String → PathTarget) (catalog : Catalog) (level : LogLevel) :
    Action → Answer
  | check paths => onBatch targets catalog level paths checkAnswer
  | tree paths => onBatch targets catalog level paths (treeAnswer level)
  | lines path groups =>
    match sourceText targets path with
    | .error message => .failure message
    | .ok source => linesAnswer level groups source

def CommandLine.answer (targets : String → PathTarget) : CommandLine → Answer
  | run action options =>
    let (level, message) := logLevel (options.logLevel?.getD "warn")
    (action.answer targets (.extended options.builtins) level).after message
  | version => { exit := 0, stdout := "kml " ++ Markup.version ++ "\n" }
  | help => { exit := 0, stdout := usage }
  | mistake => { exit := 2, stderr := usage }

end Markup
