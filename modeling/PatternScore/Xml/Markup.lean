import PatternScore.Xml.Declaration

/-!
# XML markup

The text of a document is a sequence of tags, runs of characters, references to entities, and markup
that a reader skips. `markups?` cuts a text into these pieces. It refuses what is not well-formed
within one piece; whether the pieces make up a document is for the reader to tell.
-/

namespace PatternScore.Xml

/-! ## Tags -/

/-- An attribute: a name, an equals sign and a value in quotes. -/
def attribute? (cs : List Char) : Option ((Name × Value) × List Char) := do
  let (name, rest) ← name? cs
  let rest ← behind? "=" (skipSpace rest)
  match skipSpace rest with
  | quote :: rest =>
    if quote == '"' || quote == '\'' then
      let (chars, rest) ← quotedBy? quote rest
      return ((name, ← value? chars), rest)
    else none
  | [] => none

/-- The attributes of a start tag up to its end, and whether the tag ends the element as well. Each
attribute follows a blank. -/
def tagEnd? : Nat → List (Name × Value) → List Char →
    Option ((List (Name × Value) × Bool) × List Char)
  | 0, _, _ => none
  | bound + 1, done, cs =>
    match skipSpace cs with
    | '>' :: rest => some ((done.reverse, false), rest)
    | '/' :: '>' :: rest => some ((done.reverse, true), rest)
    | rest =>
      if cs.head?.any isSpace then
        match attribute? rest with
        | some (a, rest) => tagEnd? bound (a :: done) rest
        | none => none
      else none

/-! ## Pieces of a document -/

/-- A piece of a document. -/
inductive Markup where
  /-- The start tag of an element, which may be its end as well. -/
  | startTag (name : Name) (attributes : List (Name × Value)) (closed : Bool)
  /-- The end tag of an element. -/
  | endTag (name : Name)
  /-- Characters, and whether they stand for themselves. -/
  | text (chars : List Char) (plain : Bool)
  /-- A reference to an entity. -/
  | entity (name : String)
  /-- A declaration of the type of the document. -/
  | doctype (type : TypeDeclaration)
  /-- A comment or a processing instruction. -/
  | skipped
  deriving Repr

/-- A start tag whose angle is read. -/
def startTag? (bound : Nat) (cs : List Char) : Option (Markup × List Char) := do
  let (name, rest) ← name? cs
  let ((attributes, closed), rest) ← tagEnd? bound [] rest
  return (.startTag name attributes closed, rest)

/-- An end tag whose angle and slash are read. -/
def endTag? (cs : List Char) : Option (Markup × List Char) := do
  let (name, rest) ← name? cs
  return (.endTag name, ← behind? ">" (skipSpace rest))

/-- The characters up to the next tag or reference. The end of a literal section may not stand
among them. -/
def plainText? (cs : List Char) : Option (Markup × List Char) :=
  let isPlain (c : Char) : Bool := c != '<' && c != '&'
  let run := cs.takeWhile isPlain
  if (upTo? "]]>" run).isSome then none else some (.text run true, cs.dropWhile isPlain)

/-- What a reference stands for, whose ampersand is read. -/
def referenced? (cs : List Char) : Option (Markup × List Char) :=
  (reference? cs).map fun (part, rest) =>
    match part with
    | .char c => (.text [c] false, rest)
    | .entity name => (.entity name, rest)

/-- The next piece of a document. -/
def markup? (bound : Nat) (cs : List Char) : Option (Markup × List Char) :=
  match cs with
  | '&' :: rest => referenced? rest
  | '<' :: '/' :: rest => endTag? rest
  | '<' :: '?' :: rest => (instructionEnd? rest).map fun rest => (.skipped, rest)
  | '<' :: '!' :: rest =>
    match behind? "--" rest, behind? "[CDATA[" rest, behind? "DOCTYPE" rest with
    | some rest, _, _ => (commentEnd? rest).map fun rest => (.skipped, rest)
    | none, some rest, _ => (upTo? "]]>" rest).map fun (chars, rest) => (.text chars false, rest)
    | none, none, some rest => (typeDeclaration? rest).map fun (t, rest) => (.doctype t, rest)
    | none, none, none => none
  | '<' :: rest => startTag? bound rest
  | cs => plainText? cs

/-- The pieces of a text; those that are read are given last first. -/
def markupsFrom? : Nat → List Markup → List Char → Option (List Markup)
  | _, done, [] => some done.reverse
  | 0, _, _ :: _ => none
  | bound + 1, done, c :: cs =>
    match markup? (bound + 1) (c :: cs) with
    | some (piece, rest) => markupsFrom? bound (piece :: done) rest
    | none => none

/-- The pieces of a text. -/
def markups? (cs : List Char) : Option (List Markup) :=
  markupsFrom? cs.length [] cs

/-! ## The start of a document -/

/-- A pair of the declaration that may begin a document: a blank, a name, an equals sign and a
value of letters, digits, points and hyphens in quotes. -/
def declared? (name : String) (cs : List Char) : Option (String × List Char) := do
  if !cs.head?.any isSpace then none
  let rest ← behind? name (skipSpace cs)
  let rest ← behind? "=" (skipSpace rest)
  match skipSpace rest with
  | quote :: rest =>
    let isPart (c : Char) : Bool := c.isAlphanum || c == '.' || c == '-' || c == '_'
    let value := rest.takeWhile isPart
    if (quote == '"' || quote == '\'') && (rest.drop value.length).head? == some quote then
      return (String.ofList value, rest.drop (value.length + 1))
    else none
  | [] => none

/-- What a document says about itself before it begins. -/
structure Opening where
  /-- The name of its encoding. -/
  encoding : Option String := none
  /-- Nothing is declared elsewhere that would count. -/
  standsAlone : Bool := false
  deriving DecidableEq, Repr

/-- The declaration that may begin a document, behind its first word: a version, an encoding and a
word on standing alone. -/
def opening? (cs : List Char) : Option (Opening × List Char) := do
  let (_, rest) ← declared? "version" cs
  let (encoding, rest) ←
    match declared? "encoding" rest with
    | some (value, rest) =>
      if value.toList.head?.any Char.isAlpha then some (some value, rest) else none
    | none => some (none, rest)
  let (standsAlone, rest) ←
    match declared? "standalone" rest with
    | some (value, rest) =>
      if value == "yes" || value == "no" then some (value == "yes", rest) else none
    | none => some (false, rest)
  return ({ encoding, standsAlone }, ← behind? "?>" (skipSpace rest))

/-- What the text says about itself, if it begins with a declaration, and what stands behind it. -/
def start? (cs : List Char) : Option (Opening × List Char) :=
  match behind? "<?xml" cs with
  | some rest => if rest.head?.any isSpace then opening? rest else some ({}, cs)
  | none => some ({}, cs)

/-- A line of a document ends with a line feed, however it is written. -/
def plainLineEnds : List Char → List Char
  | '\r' :: '\n' :: cs => '\n' :: plainLineEnds cs
  | '\r' :: cs => '\n' :: plainLineEnds cs
  | c :: cs => c :: plainLineEnds cs
  | [] => []

end PatternScore.Xml
