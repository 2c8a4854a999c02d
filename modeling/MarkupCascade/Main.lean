import MarkupCascade.CommandLine

/-!
The program: gathers what a run may look at, and shows what comes of it.
-/

namespace MarkupCascade.CommandLine

/-- The file at a path, if there is one. -/
def load (path : String) : IO (Option (String × FileEntry)) := do
  try
    let bytes ← IO.FS.readBinFile path
    return some (Text.Path.normalize path, .file bytes.toList)
  catch _ => return none

/-- Every argument may name a file, as a whole or behind an equals sign. -/
def gather (arguments : List String) : IO Input := do
  let paths := arguments ++ arguments.filterMap fun a => (Arguments.splitOption a).2
  let files ← paths.filterMapM load
  let environment ← ["TRELLIS_CLASSES", "TRELLIS_ENCODING"].filterMapM fun name => do
    return (← IO.getEnv name).map fun value => (name, value)
  return { arguments, environment, files }

end MarkupCascade.CommandLine

def main (arguments : List String) : IO UInt32 := do
  let outcome := MarkupCascade.CommandLine.run (← MarkupCascade.CommandLine.gather arguments)
  IO.print outcome.output
  IO.eprint outcome.errors
  if let some reason := outcome.abort then IO.eprintln reason.message
  return outcome.exitCode
