import PatternScore.Xml.Basic
import PatternScore.Xml.DocumentType
import PatternScore.Xml.Markup

/-!
# Reading XML

A reader goes through the pieces of a document with a stack of the elements that are open. Every
end tag closes the innermost one. An entity is read in the place of its name, and closes what it
opens. Names with a colon need a declaration of the namespace in their own start tag or around it;
only the names themselves are kept.
-/

namespace PatternScore.Xml

/-! ## Namespaces -/

/-- The namespaces that are declared at a place, the innermost first. -/
abbrev Spaces := List (String × String)

/-- The namespace of the names that begin with the word `xml`. -/
def xmlSpace : String := "http://www.w3.org/XML/1998/namespace"

/-- The namespace of declarations of namespaces. -/
def declarationSpace : String := "http://www.w3.org/2000/xmlns/"

/-- The namespace that an attribute declares, if it declares one. The empty name stands for names
without a colon. -/
def declaredSpace? (a : Attribute) : Option (String × String) :=
  if a.1.space == "xmlns" then some (a.1.name, a.2)
  else if a.1.space == "" && a.1.name == "xmlns" then some ("", a.2)
  else none

/-- A namespace may be declared: reserved names keep their meaning, a name with a colon stands for
something, and the brace that sets a namespace off is not part of it. -/
def isDeclarable : String × String → Bool
  | (name, space) =>
    name != "xmlns" && (name == "xml") == (space == xmlSpace) && space != declarationSpace &&
      (name == "" || space != "") && !space.toList.contains '\x7d'

/-- The namespace of a name with a colon. -/
def spaceOf? (spaces : Spaces) (name : Name) : Option String :=
  if name.space == "xml" then some xmlSpace else spaces.lookup name.space

/-- The namespaces within an element: what its attributes declare, and what holds around it. -/
def spacesWithin? (attributes : List Attribute) (spaces : Spaces) : Option Spaces :=
  let declared := attributes.filterMap declaredSpace?
  if declared.all isDeclarable then some (declared ++ spaces) else none

/-- The full name of an attribute; without a colon it is in no namespace. -/
def fullName? (spaces : Spaces) (name : Name) : Option (String × String) :=
  if name.space == "" then some ("", name.name)
  else (spaceOf? spaces name).map fun space => (space, name.name)

/-- No value occurs twice. -/
def allDifferent {α : Type} [BEq α] : List α → Bool
  | [] => true
  | x :: rest => !rest.contains x && allDifferent rest

/-- The attributes without a namespace, if all names are declared and different. -/
def plainAttributes? (spaces : Spaces) (attributes : List Attribute) :
    Option (List (String × String)) := do
  let others := attributes.filter fun a => (declaredSpace? a).isNone
  let names ← others.mapM fun a => fullName? spaces a.1
  if allDifferent (attributes.map (·.1)) && allDifferent names then
    return (others.filter (·.1.space == "")).map fun a => (a.1.name, a.2)
  else none

/-! ## Elements -/

/-- An element of which the end is not read yet. -/
structure OpenElement where
  /-- The name as it is written. -/
  name : Name
  /-- The attributes without a namespace. -/
  attributes : List (String × String)
  /-- The namespaces that hold in the element. -/
  spaces : Spaces
  /-- The characters before the first child, the last one first. -/
  lead : List Char := []
  /-- The children, the last one first. -/
  children : List Element := []

/-- The element when its end is read. -/
def OpenElement.close (e : OpenElement) : Element :=
  let lead := if e.lead.isEmpty then none else some (String.ofList e.lead.reverse)
  .node e.name.name e.attributes lead e.children.reverse

/-- How far a document is read. -/
structure Progress where
  /-- The open elements, the innermost first. -/
  stack : List OpenElement := []
  /-- The outermost element when it is read. -/
  root : Option Element := none
  /-- The document stands alone. -/
  standsAlone : Bool := false
  /-- The type of the document, if one is declared. -/
  type : Option DocumentType := none
  /-- The text of an entity is being read, so that the outermost element that is given was open
  before it. -/
  isInEntity : Bool := false
  /-- How many bytes may still come from entities. -/
  budget : Nat := 0

namespace Progress

/-- Adds an element that is read to the one around it. -/
def add (p : Progress) (e : Element) : Progress :=
  match p.stack with
  | [] => { p with root := some e }
  | outer :: rest => { p with stack := { outer with children := e :: outer.children } :: rest }

/-- Opens an element; there is only one outermost element. -/
def startTag? (p : Progress) (name : Name) (written : List (Name × Value)) (closed : Bool) :
    Option Progress := do
  if p.stack.isEmpty && p.root.isSome then none
  let (attributes, budget) ← (p.type.getD {}).attributesOf? p.budget name written
  let spaces ← spacesWithin? attributes ((p.stack.head?.map (·.spaces)).getD [])
  if name.space != "" && (spaceOf? spaces name).isNone then none
  let element : OpenElement := { name, attributes := ← plainAttributes? spaces attributes, spaces }
  let p := { p with budget }
  return if closed then p.add element.close else { p with stack := element :: p.stack }

/-- Closes the innermost element, which must have the name and be opened in the same text. -/
def endTag? (p : Progress) (name : Name) : Option Progress :=
  match p.stack with
  | [] => none
  | e :: rest =>
    if e.name = name ∧ !(p.isInEntity && rest.isEmpty) then
      some ({ p with stack := rest }.add e.close)
    else none

/-- Takes in characters. Outside the outermost element only blanks may stand. -/
def text? (p : Progress) (chars : List Char) (plain : Bool) : Option Progress :=
  match p.stack with
  | [] => if plain && chars.all isSpace then some p else none
  | e :: rest =>
    if e.children.isEmpty then
      some { p with stack := { e with lead := chars.reverse ++ e.lead } :: rest }
    else some p

/-- Takes in the type of the document, of which there is one at most, before the outermost
element. -/
def doctype? (p : Progress) (t : TypeDeclaration) : Option Progress := do
  if p.stack.isEmpty && p.root.isNone && p.type.isNone then
    return { p with type := some (← DocumentType.ofDeclaration? p.budget p.standsAlone t) }
  else none

/-- Takes in the next piece of a document, if it is none that stands for a text. -/
def markup? (p : Progress) : Markup → Option Progress
  | .startTag name attributes closed => p.startTag? name attributes closed
  | .endTag name => p.endTag? name
  | .text chars plain => p.text? chars plain
  | .doctype t => p.doctype? t
  | .skipped => some p
  | .entity _ => none

/-- The open elements as they stand around an entity, and the pieces of its text. An entity stands
within an element. -/
def enter? (p : Progress) (name : String) : Option (Progress × List Markup) := do
  let some (some text) := (p.type.getD {}).entities.lookup name | none
  let size := DocumentType.sizeOf text
  if p.stack.isEmpty || p.budget < size then none
  return ({ p with stack := p.stack.take 1, isInEntity := true, budget := p.budget - size },
    ← markups? text)

/-- Goes on behind an entity, when its text is read; all that it opened is closed. -/
def leave? (p inner : Progress) : Option Progress :=
  match inner.stack with
  | [e] => some { inner with stack := e :: p.stack.drop 1, isInEntity := p.isInEntity }
  | _ => none

/-- Takes in the pieces of a document or of an entity. Entities may stand within entities as deep as
`depth` says; one that stands within itself goes deeper than that. -/
def read? (depth : Nat) (p : Progress) : List Markup → Option Progress
  | [] => some p
  | .entity name :: rest =>
    match depth with
    | 0 => none
    | depth + 1 =>
      match p.enter? name with
      | none => none
      | some (inner, pieces) =>
        match (inner.read? depth pieces).bind p.leave? with
        | some p => p.read? (depth + 1) rest
        | none => none
  | piece :: rest =>
    match p.markup? piece with
    | some p => p.read? depth rest
    | none => none
termination_by pieces => (depth, pieces.length)

/-- The document, if all of it is read. -/
def finish? (p : Progress) : Option Element :=
  if p.stack.isEmpty then p.root else none

end Progress

/-- What entities may add to a document of some size: all in all the document stays under eight
mebibytes, or under the hundredfold of what is written. -/
def entityBudget (size : Nat) : Nat :=
  max (8 * 1024 * 1024 - 1) (100 * size) - size

/-- The number of entities that a document declares, which bounds how deep they stand within each
other. -/
def entityCount (pieces : List Markup) : Nat :=
  pieces.foldl (fun count piece =>
    match piece with
    | .doctype t => count + t.declarations.length
    | _ => count) 0

/-- The document that characters write. -/
def Element.ofChars? (cs : List Char) : Option Element := do
  if !cs.all isLegal then none
  let (opening, rest) ← start? (plainLineEnds cs)
  let pieces ← markups? rest
  let budget := entityBudget (DocumentType.sizeOf cs)
  let start : Progress := { standsAlone := opening.standsAlone, budget }
  (← start.read? (entityCount pieces + 1) pieces).finish?

/-- The document that a text writes; a mark of the byte order may stand in front of it. -/
def Element.read? (s : String) : Option Element :=
  match s.toList with
  | c :: cs => if c.toNat == 0xFEFF then Element.ofChars? cs else Element.ofChars? (c :: cs)
  | [] => none

end PatternScore.Xml
