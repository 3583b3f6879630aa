import Markup.Command.Run

/-!
# The program

Looks the paths of its command line up in the file system, and leaves the rest to
`CommandLine.answer`.
-/

namespace Markup

def readTarget (path : String) : IO PathTarget := do
  try return .file (← IO.FS.readBinFile path)
  catch e => return .unreadable (toString e)

/-- what a path leads to in the file system -/
def lookUp (path : String) : IO PathTarget := do
  try
    let real ← IO.FS.realPath path
    if ← real.isDir then return .directory else readTarget path
  catch _ => return .missing

end Markup

def main (args : List String) : IO UInt32 := do
  let command := Markup.CommandLine.ofArguments args
  let targets ← command.paths.mapM fun path => return (path, ← Markup.lookUp path)
  let answer := command.answer fun path => (targets.lookup path).getD .missing
  (← IO.getStdout).putStr answer.stdout
  (← IO.getStderr).putStr answer.stderr
  return answer.exit.toUInt32
