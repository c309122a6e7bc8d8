import PatternScore.Xml.NameTable

/-!
# Characters and names of XML

What all kinds of markup are made of: the characters that may stand in a document, blanks, names,
and names with a namespace in front of a colon.

Every reader here and in the modules that build on it takes what is left of a text and returns what
it read with what is left behind it. Where a number comes first, it bounds how many characters are
read.
-/

namespace PatternScore.Xml

/-! ## Characters -/

/-- A character that may stand in a document. -/
def isLegal (c : Char) : Bool :=
  let n := c.toNat
  n == 9 || n == 10 || n == 13 || (32 ≤ n && n < 0xFFFE) || 0x10000 ≤ n

/-- A blank between parts of a tag. -/
def isSpace (c : Char) : Bool :=
  c == ' ' || c == '\t' || c == '\n' || c == '\r'

/-- A character that a name may begin with. -/
def isNameStart (c : Char) : Bool :=
  c.isAlpha || c == '_' || (128 ≤ c.toNat && inRuns letterRanges c.toNat)

/-- A character that may stand in a name. -/
def isNameChar (c : Char) : Bool :=
  isNameStart c || c.isDigit || c == '-' || c == '.' ||
    (128 ≤ c.toNat && inRuns followerRanges c.toNat)

/-! ## Words -/

/-- The text behind a word, if it begins with the word. -/
def behind? (word : String) (cs : List Char) : Option (List Char) :=
  if word.toList.isPrefixOf cs then some (cs.drop word.length) else none

/-- The characters up to a word, and those behind it. -/
def upTo? (word : String) : List Char → Option (List Char × List Char)
  | [] => none
  | c :: cs =>
    match behind? word (c :: cs) with
    | some rest => some ([], rest)
    | none => (upTo? word cs).map fun (before, rest) => (c :: before, rest)

/-- Leaves out the blanks at the start. -/
def skipSpace (cs : List Char) : List Char :=
  cs.dropWhile isSpace

/-- What follows the first blanks, of which there is at least one. -/
def behindSpace? (cs : List Char) : Option (List Char) :=
  if cs.head?.any isSpace then some (skipSpace cs) else none

/-- The characters between quotes, of which the first is read. -/
def quotedBy? (quote : Char) (cs : List Char) : Option (List Char × List Char) :=
  match cs.dropWhile (· != quote) with
  | _ :: rest => some (cs.takeWhile (· != quote), rest)
  | [] => none

/-! ## Names -/

/-- A name without a colon. -/
def simpleName? : List Char → Option (String × List Char)
  | [] => none
  | c :: cs =>
    if isNameStart c then
      some (String.ofList (c :: cs.takeWhile isNameChar), cs.dropWhile isNameChar)
    else none

/-- A name in a namespace, which is empty if the name has no colon. -/
structure Name where
  /-- What stands before the colon. -/
  space : String := ""
  /-- What stands behind the colon. -/
  name : String
  deriving DecidableEq, Repr

/-- A name with at most one colon. -/
def name? (cs : List Char) : Option (Name × List Char) := do
  let (first, rest) ← simpleName? cs
  match rest with
  | ':' :: rest =>
    let (second, rest) ← simpleName? rest
    return ({ space := first, name := second }, rest)
  | _ => return ({ name := first }, rest)

end PatternScore.Xml
