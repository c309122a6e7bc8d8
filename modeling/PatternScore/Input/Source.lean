import PatternScore.Abc.Extraction
import PatternScore.Abc.Reader
import PatternScore.Input.File
import PatternScore.Input.Format
import PatternScore.Json.Reader
import PatternScore.Midi.Extraction
import PatternScore.Midi.File
import PatternScore.MusicXml.Extraction
import PatternScore.MusicXml.Reader
import PatternScore.Xml.Encoding

/-!
# Sources

A source takes documents of one format. `Source.load` reads a file into the form that its format
gives it, and `Source.extract` takes the header and the voices from that.
-/

namespace PatternScore

/-- A way of taking documents of one format. -/
structure Source where
  /-- The format. -/
  format : Format
  /-- How voices are taken from it, as far as that can be told. -/
  options : Midi.Options := {}
  deriving DecidableEq, Repr

/-- A file that is read. -/
inductive Parsed where
  /-- A tune, with the text that it was parsed from. -/
  | tune (tune text : Json)
  /-- A recording. -/
  | recording (r : Midi.Recording)
  /-- The outermost element of a score. -/
  | score (root : Xml.Element)

namespace Source

/-- The source for the file at a path. -/
def ofPath (path : String) (options : Midi.Options) : Except Failure Source := do
  return { format := ← Format.ofPath path, options }

/-- How the events of the source are to be treated. -/
def policy (s : Source) : Policy :=
  match s.format with
  | .abc => Abc.policy
  | .midi => Midi.policy
  | .musicXml => MusicXml.policy

/-! ## Loading -/

/-- A tune as it is saved: alone, as the first of a list, or beside its text. -/
def tuneOfJson (path : String) (j : Json) : Except Failure Parsed := do
  let first : Json ←
    match j with
    | .array [] => .error (.source (.noTunes path))
    | .array (first :: _) => .ok first
    | j => .ok j
  match first with
  | .object _ =>
    match first.get? "tune" with
    | some tune => return .tune tune (first.get "abc")
    | none => return .tune first .null
  | _ => .error (.source (.unexpectedTune path))

/-- Reads a tune. -/
def loadTune (path : String) (file : Option File) : Except Failure Parsed :=
  match (file.bind File.text?).map Json.read with
  | some (.ok j) => tuneOfJson path j
  | some (.error (.tooDeep nest)) => .error (.tooDeep nest.word)
  | _ => .error (.source (.unreadableTune path))

/-- Reads a recording. -/
def loadRecording (path : String) (file : Option File) : Except Failure Parsed :=
  match file with
  | some (.bytes data) => ((Midi.Recording.decode data).mapError (·.failure path)).map .recording
  | _ => .error (.source (.unreadableMidi path))

/-- A member of an archive that may be its score: of the right extension, and not about the archive
itself. -/
def isScoreName (name : String) : Bool :=
  (name.endsWith ".xml" || name.endsWith ".musicxml") && !name.startsWith "META-INF"

/-- What is read from an archive that may hold a score. -/
def orUnreadable {α : Type} (path : String) (a : Archive.Reading α) : Except Failure α :=
  match a with
  | .ok a => .ok a
  | .error .damaged => .error (.source (.unreadableScore path))
  | .error (.refused reason) => .error (.archive reason)

/-- The bytes of a score. An archive holds it in the first member that may be a score. -/
def scoreBytes (path : String) (file : Option File) : Except Failure (List UInt8) := do
  match file with
  | none => .error (.source (.unreadableScore path))
  | some file =>
    if (Text.lower path).endsWith ".mxl" then
      match (← orUnreadable path file.memberNames).find? isScoreName with
      | some name => orUnreadable path (file.member name)
      | none => .error (.source (.noScoreInside path))
    else
      match file with
      | .bytes data => .ok data
      | .archive _ => .error (.source (.unreadableScore path))

/-- Reads a score. -/
def loadScore (path : String) (file : Option File) : Except Failure Parsed := do
  match Xml.Element.readBytes (← scoreBytes path file) with
  | .ok root => return .score root
  | .error .malformed => .error (.source (.unreadableScore path))
  | .error (.encoding reason) => .error (.encoding reason)

/-- Reads the file at a path; no file is given if there is none. -/
def load (s : Source) (path : String) (file : Option File) : Except Failure Parsed :=
  match s.format with
  | .abc => loadTune path file
  | .midi => loadRecording path file
  | .musicXml => loadScore path file

/-! ## Extraction -/

/-- Takes the header and the voices from a file that is read. -/
def extract {τ : Type} [Scalar τ] (s : Source) : Parsed → Except Failure (Document τ)
  | .tune tune text => do (← Abc.Tune.ofJson tune text).extract
  | .recording r => r.extract s.options
  | .score root => do (← MusicXml.Score.ofXml root).extract s.options.chromatic

/-- Converts a file. -/
def convert {τ : Type} [Scalar τ] (s : Source) (c : Settings τ) (path : String)
    (file : Option File) : Conversion :=
  Conversion.run s.policy c (do s.extract (← s.load path file))

end Source

end PatternScore
