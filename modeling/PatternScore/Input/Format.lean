import PatternScore.Failure
import PatternScore.Text.Case

/-!
# Formats of documents

The extension of a file's name tells what the file holds.
-/

namespace PatternScore

/-- What a document is written in. -/
inductive Format where
  | abc | midi | musicXml
  deriving DecidableEq, Repr

/-- The characters behind the last slash. -/
def fileName (path : List Char) : List Char :=
  (path.reverse.takeWhile (· != '/')).reverse

/-- The extension of a path with its point: what stands from the last point of the file's name on.
Points that the name begins with do not count. -/
def extension (path : String) : String :=
  let name := (fileName path.toList).dropWhile (· == '.')
  if name.contains '.' then
    String.ofList ('.' :: (name.reverse.takeWhile (· != '.')).reverse)
  else ""

namespace Format

/-- The name of the format. -/
def name : Format → String
  | abc => "abc"
  | midi => "midi"
  | musicXml => "musicxml"

/-- The format that files of an extension have. -/
def ofExtension? : String → Option Format
  | ".json" => some abc
  | ".mid" | ".midi" => some midi
  | ".xml" | ".musicxml" | ".mxl" => some musicXml
  | _ => none

/-- The format of the file at a path. -/
def ofPath (path : String) : Except Failure Format :=
  let found := Text.lower (extension path)
  match ofExtension? found with
  | some format => .ok format
  | none => .error (.source (.unsupportedFile found))

end Format

end PatternScore
