import PatternScore.CommandLine.Arguments
import PatternScore.Input.Settings
import PatternScore.Input.Source

/-!
# The command

`run` answers a command line, given the files that it may read. The program goes to the output, or
to a file if one is named.
-/

namespace PatternScore.CommandLine

/-- What the command does. -/
structure Outcome where
  /-- The exit code: zero if every voice is converted, two if the command line cannot be read. -/
  code : Nat
  /-- What is written to the output. -/
  output : String := ""
  /-- The files that are written. -/
  written : List (String × String) := []
  deriving DecidableEq, Repr

/-- How the command is used. -/
def usage : String :=
  "usage: scorecycle [-h] [--config CONFIG] [--instrument INSTRUMENT] [--output OUTPUT] " ++
    "[--verbose] input\n"

/-- The files that a request reads, if they are there. -/
def Request.paths : Request → List String
  | .convert a => [a.config, a.input]
  | .help => []

/-- The settings with the sound that the command line names, unless it is empty. -/
def withInstrument {τ : Type} (c : Settings τ) (instrument : Option String) : Settings τ :=
  match instrument.filter (!·.isEmpty) with
  | some sound => { c with instrument := .value (some sound) }
  | none => c

/-- The settings and the source of a request. -/
def prepare {τ : Type} [Scalar τ] (a : Arguments) (files : Files) :
    Except Failure (Settings τ × Source) := do
  let (c, _) ← Settings.load a.config (files.at? a.config)
  let c := withInstrument c a.instrument
  let source ← Source.ofPath a.input { split := c.split, chromatic := c.chromatic }
  return (c, source)

/-- What becomes of a conversion. -/
def finish (a : Arguments) (c : Conversion) : Outcome :=
  let code := if c.ok then 0 else 1
  match a.output.filter (!·.isEmpty) with
  | some path => { code, written := [(plainPath path, c.text)] }
  | none => { code, output := c.text }

/-- A failure that is the user's to mend. -/
def isUsers (f : Failure) : Bool :=
  [FailureKind.source, .value, .decoding].contains f.kind

/-- Converts a document. -/
def convert (a : Arguments) (files : Files) : Except Failure Outcome :=
  match (prepare a files : Except Failure (Settings Float × Source)) with
  | .ok (c, source) => .ok (finish a (source.convert c a.input (files.at? a.input)))
  | .error f =>
    if isUsers f then .ok { code := 1, output := "// Error: " ++ f.message ++ "\n" }
    else .error f

/-- Answers a command line. -/
def run (words : List String) (files : Files) : Except Failure Outcome :=
  match parse? words with
  | some (.convert a) => convert a files
  | some .help => .ok { code := 0, output := usage }
  | none => .ok { code := 2 }

end PatternScore.CommandLine
