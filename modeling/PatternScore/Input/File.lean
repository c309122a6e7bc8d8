import PatternScore.Archive.Directory

/-!
# Files

What is read from a place: bytes, or the members of an archive. Bytes may be those of an archive as
well.
-/

namespace PatternScore

/-- The content of a file. -/
inductive File where
  /-- Bytes of any kind. -/
  | bytes (data : List UInt8)
  /-- The members of an archive by name. -/
  | archive (members : List (String × List UInt8))
  deriving Repr

/-! ## Paths -/

/-- The steps of a path without those that lead nowhere: the empty ones and single points. The last
step is kept as it is. -/
def leadingSteps : List String → List String
  | [] => []
  | [last] => [last]
  | step :: rest =>
    if step == "" || step == "." then leadingSteps rest else step :: leadingSteps rest

/-- The shortest way of writing a path that does not go up; one that begins with a slash goes on
doing so. -/
def plainPath (path : String) : String :=
  let steps :=
    match Text.splitOn '/' path with
    | "" :: rest => "" :: leadingSteps rest
    | steps => leadingSteps steps
  Text.joinWith "/" steps

/-- The files that can be read, by path. -/
abbrev Files := List (String × File)

/-- The file at a path, however the path is written. -/
def Files.at? (files : Files) (path : String) : Option File :=
  (files.find? fun (name, _) => plainPath name == plainPath path).map (·.2)

namespace File

/-- The file that holds a text. -/
def ofText (s : String) : File :=
  .bytes s.toUTF8.toList

/-- The text of a file, if it is one. -/
def text? : File → Option String
  | bytes data => String.fromUTF8? (ByteArray.mk data.toArray)
  | archive _ => none

/-! ## Archives -/

/-- The names of the members, if the file is an archive. -/
def memberNames : File → Archive.Reading (List String)
  | bytes data => (Archive.Directory.read data.toArray).map fun d => d.entries.map (·.name)
  | archive members => .ok (members.map (·.1))

/-- The content of a member; of members of one name the last one counts. -/
def member (f : File) (name : String) : Archive.Reading (List UInt8) :=
  match f with
  | bytes data => do (← Archive.Directory.read data.toArray).content data.toArray name
  | archive members =>
    match members.reverse.lookup name with
    | some content => .ok content
    | none => .error .damaged

end File

end PatternScore
