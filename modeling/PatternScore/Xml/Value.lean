import PatternScore.Xml.Name

/-!
# References, values, and what a reader skips

An ampersand begins a reference, to a character or to an entity. A value is what stands between the
quotes of an attribute: characters and entities. Comments and processing instructions may stand
nearly everywhere and are passed over.
-/

namespace PatternScore.Xml

/-! ## References -/

/-- The value of a digit to a base of at most sixteen. -/
def digitOf? (base : Nat) (c : Char) : Option Nat :=
  let value :=
    if '0' ≤ c && c ≤ '9' then c.toNat - 48
    else if 'a' ≤ c && c ≤ 'f' then c.toNat - 87
    else if 'A' ≤ c && c ≤ 'F' then c.toNat - 55
    else 16
  if value < base then some value else none

/-- The character whose code the digits give, up to a semicolon. -/
def codeReference? (base : Nat) (cs : List Char) : Option (Char × List Char) := do
  let digits := cs.takeWhile fun c => (digitOf? base c).isSome
  let code := digits.foldl (fun n c => n * base + (digitOf? base c).getD 0) 0
  match cs.drop digits.length with
  | ';' :: rest =>
    if digits.isEmpty || 0x110000 ≤ code || (0xD800 ≤ code && code < 0xE000) then none
    else if isLegal (Char.ofNat code) then some (Char.ofNat code, rest)
    else none
  | _ => none

/-- The name of an entity up to a semicolon. -/
def entityName? (cs : List Char) : Option (String × List Char) := do
  let (name, rest) ← simpleName? cs
  return (name, ← behind? ";" rest)

/-- The entities that every document knows. -/
def knownEntities : List (String × Char) :=
  [("amp", '&'), ("lt", '<'), ("gt", '>'), ("quot", '"'), ("apos", '\'')]

/-- What a part of a text stands for. -/
inductive Part where
  /-- A character. -/
  | char (c : Char)
  /-- The text of an entity. -/
  | entity (name : String)
  deriving DecidableEq, Repr

/-- What a reference stands for, whose ampersand is read. -/
def reference? : List Char → Option (Part × List Char)
  | '#' :: 'x' :: cs => (codeReference? 16 cs).map fun (c, rest) => (.char c, rest)
  | '#' :: cs => (codeReference? 10 cs).map fun (c, rest) => (.char c, rest)
  | cs => (entityName? cs).map fun (name, rest) =>
    (((knownEntities.lookup name).map .char).getD (.entity name), rest)

/-! ## Values -/

/-- The value of an attribute. -/
abbrev Value := List Part

/-- The parts of a value behind those that are read, which are given last first. -/
def valueFrom? : Nat → Value → List Char → Option Value
  | _, done, [] => some done.reverse
  | 0, _, _ :: _ => none
  | bound + 1, done, c :: cs =>
    if c == '<' then none
    else if c == '&' then
      match reference? cs with
      | some (part, rest) => valueFrom? bound (part :: done) rest
      | none => none
    else valueFrom? bound (.char (if isSpace c then ' ' else c) :: done) cs

/-- The value that some characters write. Blanks of any kind become spaces; no tag begins in it. -/
def value? (cs : List Char) : Option Value :=
  valueFrom? cs.length [] cs

/-! ## Comments and instructions -/

/-- The rest behind a comment whose opening is read; two hyphens can only be its end. -/
def commentEnd? : List Char → Option (List Char)
  | '-' :: '-' :: '>' :: rest => some rest
  | '-' :: '-' :: _ => none
  | _ :: cs => commentEnd? cs
  | [] => none

/-- The rest behind a processing instruction whose opening is read. The name of the declaration that
may begin a document is reserved. -/
def instructionEnd? (cs : List Char) : Option (List Char) := do
  let (target, rest) ← simpleName? cs
  if target.map Char.toLower == "xml" then none
  let (content, rest) ← upTo? "?>" rest
  if content.isEmpty || content.head?.any isSpace then some rest else none

end PatternScore.Xml
