import PatternScore.CommandLine.Run

/-!
# The program

Reads the files that the command line names, answers it, and writes what the answer says.
-/

open PatternScore

/-- The content of a file, if it can be read. -/
def contentOf (path : String) : IO (Option (String × File)) := do
  try
    let data ← IO.FS.readBinFile path
    return some (path, .bytes data.toList)
  catch _ => return none

/-- The command. -/
def main (words : List String) : IO UInt32 := do
  let paths := ((CommandLine.parse? words).map (·.paths)).getD []
  let files := (← paths.mapM contentOf).filterMap id
  match CommandLine.run words files with
  | .ok outcome =>
    for (path, text) in outcome.written do
      IO.FS.writeFile path text
    IO.print outcome.output
    if outcome.code == 2 then IO.eprint CommandLine.usage
    return outcome.code.toUInt32
  | .error f =>
    IO.eprintln f.summary
    return 1
