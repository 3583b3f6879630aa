/-!
# Command lines

A command line names a command, its paths and its options.  `CommandLine.ofArguments` reads one from
left to right, and the first thing that settles it counts: a request for help or for the version, or
the first mistake.

* `check PATH…`, `tree PATH…`   one path or more;
* `lines PATH`                  one path, and the flag `--groups` at most once;
* `--builtin NAME`              before or after the command, any number of times;
* `--log-level LEVEL`           before or after the command, in either place at most once.

An option that is given after the command makes what was given of it before the command void.  The
value of an option stands in the same argument after an equals sign, or is the next argument, which
must not look like an option then.  After `--` every argument is a path.
-/

namespace Markup

/-! ## arguments -/

/-- what an argument looks like -/
inductive Argument where
  /-- two hyphens -/
  | separator
  /-- two hyphens and a name, perhaps with a value -/
  | long (name : String) (value? : Option String)
  /-- a hyphen and a letter, whatever follows it -/
  | short (letter : Char)
  | plain (text : String)
  deriving DecidableEq, Repr

def Argument.of (arg : String) : Argument :=
  match arg.toList with
  | ['-', '-'] => separator
  | '-' :: '-' :: cs =>
    let name := String.ofList (cs.takeWhile (· != '='))
    match cs.dropWhile (· != '=') with
    | [] => long name none
    | _ :: value => long name (some (String.ofList value))
  | '-' :: c :: _ => short c
  | _ => plain arg

/-! ## options -/

/-- the options given on one side of the command -/
structure Options where
  builtins : List String := []
  logLevel? : Option String := none
  deriving DecidableEq, Repr

namespace Options

/-- the options with one more, if there is one of this name and it may be given -/
def add (o : Options) (name value : String) : Option Options :=
  if name = "builtin" then some { o with builtins := o.builtins ++ [value] }
  else if name = "log-level" ∧ o.logLevel? = none then some { o with logLevel? := some value }
  else none

/-- the options given before the command, where those after it leave them in force -/
def orElse (after before : Options) : Options :=
  { builtins := if after.builtins.isEmpty then before.builtins else after.builtins
    logLevel? := after.logLevel?.or before.logLevel? }

end Options

/-! ## commands -/

/-- what is asked for -/
inductive Action where
  /-- the problems of a batch -/
  | check (paths : List String)
  /-- the trees and constants of a batch -/
  | tree (paths : List String)
  /-- the lines of a source, with its groups folded or not -/
  | lines (path : String) (groups : Bool)
  deriving DecidableEq, Repr

def Action.paths : Action → List String
  | check paths => paths
  | tree paths => paths
  | lines path _ => [path]

inductive CommandName where
  | check
  | tree
  | lines
  deriving DecidableEq, Repr

def CommandName.ofText? (s : String) : Option CommandName :=
  if s = "check" then some check
  else if s = "tree" then some tree
  else if s = "lines" then some lines
  else none

/-- the arguments after a command, as far as they have been read -/
structure Operands where
  options : Options := {}
  paths : List String := []
  groups : Bool := false
  deriving DecidableEq, Repr

/-- the action of a command with these operands, if they fit it -/
def CommandName.action? (name : CommandName) (o : Operands) : Option Action :=
  match name, o.paths with
  | check, p :: ps => some (.check (p :: ps))
  | tree, p :: ps => some (.tree (p :: ps))
  | lines, [p] => some (.lines p o.groups)
  | _, _ => none

def CommandName.addPath (name : CommandName) (o : Operands) (path : String) : Option Operands :=
  if name = lines ∧ o.paths ≠ [] then none else some { o with paths := o.paths ++ [path] }

def CommandName.addFlag (name : CommandName) (o : Operands) (flag : String) : Option Operands :=
  if name = lines ∧ flag = "groups" ∧ o.groups = false then some { o with groups := true }
  else none

/-! ## command lines -/

inductive CommandLine where
  | run (action : Action) (options : Options)
  | version
  | help
  | mistake
  deriving DecidableEq, Repr

namespace CommandLine

/-- the command line whose arguments are all read -/
def finish (name : CommandName) (before : Options) (o : Operands) : CommandLine :=
  match name.action? o with
  | some action => run action (o.options.orElse before)
  | none => mistake

/-- the arguments after the separator -/
def ofPaths (name : CommandName) (before : Options) (o : Operands) : List String → CommandLine
  | [] => finish name before o
  | path :: args =>
    match name.addPath o path with
    | some o => ofPaths name before o args
    | none => mistake

/-- the arguments after the command -/
def ofOperands (name : CommandName) (before : Options) (o : Operands) : List String → CommandLine
  | [] => finish name before o
  | arg :: args =>
    match Argument.of arg with
    | .separator => ofPaths name before o args
    | .short letter => if letter = 'h' then help else mistake
    | .plain path =>
      match name.addPath o path with
      | some o => ofOperands name before o args
      | none => mistake
    | .long option (some value) =>
      match o.options.add option value with
      | some options => ofOperands name before { o with options := options } args
      | none => mistake
    | .long option none =>
      if option = "help" then help
      else
        match name.addFlag o option with
        | some o => ofOperands name before o args
        | none =>
          match args with
          | [] => mistake
          | next :: args =>
            match Argument.of next with
            | .plain value =>
              match o.options.add option value with
              | some options => ofOperands name before { o with options := options } args
              | none => mistake
            | _ => mistake

/-- the arguments of the command that explains the others -/
def ofHelp (topics : List String) : CommandLine :=
  match topics with
  | [] => help
  | [topic] => if topic = "help" ∨ (CommandName.ofText? topic).isSome then help else mistake
  | _ => mistake

/-- the arguments from the first one on, with some options read already -/
def ofOptions (o : Options) : List String → CommandLine
  | [] => mistake
  | arg :: args =>
    match Argument.of arg with
    | .separator => mistake
    | .short letter =>
      if letter = 'h' then help else if letter = 'V' then version else mistake
    | .plain name =>
      if name = "help" then ofHelp args
      else
        match CommandName.ofText? name with
        | some name => ofOperands name o {} args
        | none => mistake
    | .long option (some value) =>
      match o.add option value with
      | some o => ofOptions o args
      | none => mistake
    | .long option none =>
      if option = "help" then help
      else if option = "version" then version
      else
        match args with
        | [] => mistake
        | next :: args =>
          match Argument.of next with
          | .plain value =>
            match o.add option value with
            | some o => ofOptions o args
            | none => mistake
          | _ => mistake

def paths : CommandLine → List String
  | run action _ => action.paths
  | version | help | mistake => []

def ofArguments (args : List String) : CommandLine := ofOptions {} args

end CommandLine
end Markup
