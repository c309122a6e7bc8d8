import PatternScore.Conversion.Settings
import PatternScore.Input.File
import PatternScore.Yaml.Reader

/-!
# Settings files

Settings come from a file if there is one; without it, every setting has its default.
-/

namespace PatternScore.Settings

variable {τ : Type} [Scalar τ]

/-- The settings of a text. -/
def ofText (s : String) : Except Failure (Settings τ × List String) :=
  match Yaml.read? s with
  | some mapping => ofMapping mapping
  | none => .error .unreadableSettings

/-- A failure to read a file as a text. A character that is cut off by the end of the file is looked
at on its own, so that it stands at place zero. -/
def textFailure (f : Text.Utf8Failure) : Failure :=
  .notUtf8 (if f.fault = .ending then { f with place := 0 } else f)

/-- The settings of the file at a path, and warnings about them. -/
def load (path : String) (file : Option File) : Except Failure (Settings τ × List String) :=
  match file with
  | none => .ok (standard, ["Config file " ++ path ++ " not found. Using defaults."])
  | some (.bytes data) => do ofText (← (Text.decodeUtf8 data).mapError textFailure)
  | some (.archive _) => .error .unreadableSettings

end PatternScore.Settings
