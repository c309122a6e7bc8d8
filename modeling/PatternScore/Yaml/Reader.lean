import PatternScore.Json.Display
import PatternScore.Yaml.Scalar

/-!
# Reading settings files

Settings are written in YAML: mappings in blocks, of which the indentation tells what belongs
together, mappings and lists between brackets, scalars with and without quotes, and comments. Other
parts of the format have no use in settings and are refused.

Every function takes what is left of the text and returns what it read with what is left behind it.
The first argument of those that call themselves bounds the number of characters.
-/

namespace PatternScore.Yaml

/-! ## Blanks and comments -/

/-- A blank within a line. -/
def isGap (c : Char) : Bool :=
  c == ' ' || c == '\t'

/-- A blank or the end of a line, or the end of the text. -/
def atBlank : List Char → Bool
  | [] => true
  | c :: _ => isGap c || c == '\n'

/-- The rest of the text from the end of the line on. -/
def lineEnd (cs : List Char) : List Char :=
  cs.dropWhile (· != '\n')

/-- What is left behind the end of the line, if nothing but a comment stands before it. A comment
that follows something stands behind a blank. -/
def endOfLine? (cs : List Char) : Option (List Char) :=
  match cs.dropWhile isGap with
  | [] => some []
  | '\n' :: rest => some rest
  | '#' :: rest => if cs.head?.any isGap then some ((lineEnd rest).drop 1) else none
  | _ => none

/-- The next line that holds something, from its first character on, and its indentation. -/
def nextLine? : Nat → List Char → Option (Nat × List Char)
  | 0, _ => none
  | bound + 1, cs =>
    let indent := (cs.takeWhile (· == ' ')).length
    match (cs.drop indent).dropWhile isGap with
    | [] => none
    | '\n' :: rest => nextLine? bound rest
    | '#' :: rest => nextLine? bound ((lineEnd rest).drop 1)
    | _ => some (indent, cs.drop indent)

/-- The text from the next line that holds something on, and its indentation. -/
def line? (cs : List Char) : Option (Nat × List Char) :=
  nextLine? (cs.length + 1) cs

/-! ## Scalars in quotes -/

/-- The value of some hexadecimal digits. -/
def code? (count : Nat) (cs : List Char) : Option (Char × List Char) :=
  (digitsTo? 16 (cs.take count)).bind fun n =>
    if (cs.take count).length == count then some (Char.ofNat n, cs.drop count) else none

/-- The character that a letter behind a backslash stands for. -/
def escapes : List (Char × Nat) := [
  ('0', 0), ('a', 7), ('b', 8), ('t', 9), ('n', 10), ('v', 11), ('f', 12), ('r', 13), ('e', 27),
  (' ', 32), ('"', 34), ('/', 47), ('\\', 92), ('N', 0x85), ('_', 0xA0), ('L', 0x2028),
  ('P', 0x2029)]

/-- A character behind a backslash. -/
def escape? : List Char → Option (Char × List Char)
  | 'x' :: cs => code? 2 cs
  | 'u' :: cs => code? 4 cs
  | 'U' :: cs => code? 8 cs
  | c :: cs => (escapes.lookup c).map fun code => (Char.ofNat code, cs)
  | [] => none

/-- The characters up to a double quote, with escapes; those that are read are given last first. -/
def doubleQuoted? : Nat → List Char → List Char → Option (String × List Char)
  | 0, _, _ => none
  | _ + 1, _, [] => none
  | _ + 1, _, '\n' :: _ => none
  | _ + 1, done, '"' :: cs => some (String.ofList done.reverse, cs)
  | bound + 1, done, '\\' :: cs =>
    match escape? cs with
    | some (c, rest) => doubleQuoted? bound (c :: done) rest
    | none => none
  | bound + 1, done, c :: cs => doubleQuoted? bound (c :: done) cs

/-- The characters up to a single quote; two of them stand for one. -/
def singleQuoted? (done : List Char) : List Char → Option (String × List Char)
  | [] => none
  | '\n' :: _ => none
  | '\'' :: '\'' :: cs => singleQuoted? ('\'' :: done) cs
  | '\'' :: cs => some (String.ofList done.reverse, cs)
  | c :: cs => singleQuoted? (c :: done) cs

/-- A scalar in quotes, if one begins. -/
def quotedScalar? : List Char → Option (String × List Char)
  | '"' :: cs => doubleQuoted? (cs.length + 1) [] cs
  | '\'' :: cs => singleQuoted? [] cs
  | _ => none

/-! ## Scalars without quotes -/

/-- A character that begins something other than a scalar without quotes. -/
def isIndicator (c : Char) : Bool :=
  "[]\x7b\x7d,#&*!|>'\"%@".toList.contains c || c.toNat == 96

/-- A bracket, or what stands between items in brackets. -/
def isFlowSign (c : Char) : Bool :=
  "[]\x7b\x7d,".toList.contains c

/-- Text up to the end of a scalar without quotes: the end of the line, a comment, a colon before a
blank, or between brackets a sign of theirs. -/
def plainChars (inFlow : Bool) : List Char → List Char × List Char
  | [] => ([], [])
  | c :: cs =>
    let ends := c == '\n' || (inFlow && isFlowSign c) ||
      (isGap c && (cs.dropWhile isGap).head? == some '#') ||
      (c == ':' && (atBlank cs || (inFlow && cs.head?.any isFlowSign)))
    if ends then ([], c :: cs)
    else
      let (taken, rest) := plainChars inFlow cs
      (c :: taken, rest)

/-- A scalar without quotes may begin. A dash, a question mark or a colon begins one only before
something that is not blank. -/
def beginsPlain : List Char → Bool
  | [] => false
  | c :: cs =>
    if c == '-' || c == '?' || c == ':' then !atBlank cs
    else !isIndicator c && !isGap c && c != '\n'

/-- A scalar without quotes. -/
def plain? (inFlow : Bool) (cs : List Char) : Option (String × List Char) :=
  if beginsPlain cs then
    let (taken, rest) := plainChars inFlow cs
    some (String.ofList (Text.trimRight taken), rest)
  else none

/-- A scalar, with or without quotes. -/
def scalar? (inFlow : Bool) (cs : List Char) : Option (Json × List Char) :=
  if cs.head? == some '"' || cs.head? == some '\'' then
    (quotedScalar? cs).map fun (s, rest) => (.string s, rest)
  else (plain? inFlow cs).map fun (s, rest) => (plainScalar s, rest)

/-! ## Between brackets -/

/-- Leaves out blanks, ends of lines and comments. -/
def skipFlow : Nat → List Char → List Char
  | 0, cs => cs
  | bound + 1, cs =>
    match cs.dropWhile fun c => isGap c || c == '\n' with
    | '#' :: rest => skipFlow bound (lineEnd rest)
    | rest => rest

/-- The text from the next sign on. -/
def flowNext (cs : List Char) : List Char :=
  skipFlow (cs.length + 1) cs

/-- A value behind a colon may be missing. -/
def isMissing (cs : List Char) : Bool :=
  match cs with
  | [] => true
  | c :: _ => c == ',' || c == '\x7d'

mutual

/-- A value between brackets. -/
def flowValue? : Nat → List Char → Option (Json × List Char)
  | 0, _ => none
  | bound + 1, cs =>
    match cs with
    | '{' :: rest => flowMembers? bound [] (flowNext rest)
    | '[' :: rest => flowItems? bound [] (flowNext rest)
    | _ => scalar? true cs

/-- The members of a mapping up to its closing brace. -/
def flowMembers? : Nat → List (String × Json) → List Char → Option (Json × List Char)
  | 0, _, _ => none
  | _ + 1, done, '}' :: rest => some (.object done, rest)
  | bound + 1, done, cs => do
    let (key, rest) ← scalar? true cs
    let (value, rest) ←
      match flowNext rest with
      | ':' :: rest =>
        let rest := flowNext rest
        if isMissing rest then some (.null, rest) else flowValue? bound rest
      | rest => some (.null, rest)
    let done := Json.setMember done key.text value
    match flowNext rest with
    | ',' :: rest => flowMembers? bound done (flowNext rest)
    | '}' :: rest => some (.object done, rest)
    | _ => none

/-- The items of a list up to its closing bracket; those that are read are given last first. -/
def flowItems? : Nat → List Json → List Char → Option (Json × List Char)
  | 0, _, _ => none
  | _ + 1, done, ']' :: rest => some (.array done.reverse, rest)
  | bound + 1, done, cs => do
    let (item, rest) ← flowValue? bound cs
    match flowNext rest with
    | ',' :: rest => flowItems? bound (item :: done) (flowNext rest)
    | ']' :: rest => some (.array (item :: done).reverse, rest)
    | _ => none

end

/-! ## Blocks -/

/-- A value that stands on the line of its key. -/
def inlineValue? (cs : List Char) : Option (Json × List Char) :=
  if cs.head? == some '{' || cs.head? == some '[' then flowValue? (2 * cs.length + 2) cs
  else scalar? false cs

/-- A key with its colon. -/
def key? (cs : List Char) : Option (String × List Char) := do
  let (key, rest) ← scalar? false cs
  match rest.dropWhile isGap with
  | ':' :: rest => if atBlank rest then some (key.text, rest) else none
  | _ => none

mutual

/-- What stands at an indentation: a mapping, or one value. -/
def block? : Nat → Nat → List Char → Option (Json × List Char)
  | 0, _, _ => none
  | bound + 1, indent, cs =>
    match key? cs with
    | some _ => members? bound indent [] cs
    | none => do
      let (value, rest) ← inlineValue? cs
      return (value, ← endOfLine? rest)

/-- The members of a mapping from a key at its indentation on. -/
def members? : Nat → Nat → List (String × Json) → List Char → Option (Json × List Char)
  | 0, _, _, _ => none
  | bound + 1, indent, done, cs => do
    let (key, rest) ← key? cs
    let (value, rest) ←
      match endOfLine? rest with
      | some rest =>
        match line? rest with
        | some (inner, first) =>
          if indent < inner then block? bound inner first else some (.null, rest)
        | none => some (.null, rest)
      | none => do
        let (value, rest) ← inlineValue? (rest.dropWhile isGap)
        pure (value, ← endOfLine? rest)
    let done := Json.setMember done key value
    match line? rest with
    | some (next, first) =>
      if next == indent then members? bound indent done first
      else if next < indent then some (.object done, rest)
      else none
    | none => some (.object done, rest)

end

/-! ## Documents -/

/-- The text with a line feed at the end of each line, however the lines end. -/
def lineFeeds : List Char → List Char
  | '\r' :: '\n' :: cs => '\n' :: lineFeeds cs
  | '\r' :: cs => '\n' :: lineFeeds cs
  | c :: cs => c :: lineFeeds cs
  | [] => []

/-- The text without a mark of its byte order. -/
def withoutMark (cs : List Char) : List Char :=
  if cs.head? == some '\uFEFF' then cs.drop 1 else cs

/-- The line ends a document. -/
def isDocumentEnd (line : List Char) : Bool :=
  line.take 3 == ['.', '.', '.'] && atBlank (line.drop 3)

/-- The text of the document, and the text behind the line that ends it. -/
def documentEnd (cs : List Char) : List Char × List Char :=
  let lines := Text.splitChars (· == '\n') cs
  let inside := lines.takeWhile fun line => !isDocumentEnd line
  (['\n'].intercalate inside, ['\n'].intercalate (lines.drop (inside.length + 1)))

/-- The text behind the line that may begin a document. -/
def documentStart (cs : List Char) : List Char :=
  match line? cs with
  | some (0, '-' :: '-' :: '-' :: rest) => if atBlank rest then rest else cs
  | _ => cs

/-- The value of the only document of a text; nothing is null. -/
def read? (s : String) : Option Json :=
  let (document, behind) := documentEnd (withoutMark (lineFeeds s.toList))
  if (line? behind).isSome then none
  else
    match line? (documentStart document) with
    | none => some .null
    | some (indent, first) =>
      match block? (2 * first.length + 2) indent first with
      | some (value, rest) => if (line? rest).isNone then some value else none
      | none => none

end PatternScore.Yaml
