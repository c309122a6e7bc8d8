import PatternScore.Xml.Declaration

/-!
# Types of documents

What the declarations of a document mean for its content: which texts its entities stand for, and
which attributes its elements have without writing them. The first declaration of a name holds. A
document that stands alone says all there is to know; any other may have declarations elsewhere,
which are not read.
-/

namespace PatternScore.Xml

/-- An attribute with its value. -/
abbrev Attribute := Name × String

/-- An attribute that is declared for an element. -/
structure DeclaredAttribute where
  /-- The element. -/
  element : Name
  /-- The name of the attribute. -/
  name : Name
  /-- Its value is any text, so that blanks in it count. -/
  isText : Bool
  /-- Its value if it is not written. -/
  value : Option String
  deriving Repr

/-- The type of a document. -/
structure DocumentType where
  /-- The entities with their texts, which are not given for those that stand elsewhere. -/
  entities : List (String × Option (List Char)) := []
  /-- The attributes. -/
  attributes : List DeclaredAttribute := []
  /-- More may be declared elsewhere. -/
  isOpen : Bool := false
  /-- What is read from now on counts; it does not behind declarations that are not read. -/
  counts : Bool := true
  deriving Repr

namespace DocumentType

/-! ## Texts of entities -/

/-- The text of an entity as it is kept: references to characters are replaced, those to entities
stay. The characters that are done are given last first. -/
def keptTextFrom? : Nat → List Char → List Char → Option (List Char)
  | _, done, [] => some done.reverse
  | 0, _, _ :: _ => none
  | bound + 1, done, c :: cs =>
    if c == '%' then none
    else if c == '&' then
      match cs with
      | '#' :: _ =>
        match reference? cs with
        | some (.char c, rest) => keptTextFrom? bound (c :: done) rest
        | _ => none
      | _ => if (entityName? cs).isSome then keptTextFrom? bound (c :: done) cs else none
    else keptTextFrom? bound (c :: done) cs

/-- The text of an entity as it is kept. -/
def keptText? (cs : List Char) : Option (List Char) :=
  keptTextFrom? cs.length [] cs

/-! ## Values -/

/-- How many bytes a text takes. -/
def sizeOf (text : List Char) : Nat :=
  text.foldl (fun n c => n + c.utf8Size) 0

/-- The characters of a value, last first, in front of those that are done, and how much more may
come from entities. An entity that is not declared is left out if it may be declared elsewhere.
Entities may stand within entities as deep as `depth` says; one that stands within itself goes
deeper than that. -/
def expandFrom? (d : DocumentType) (depth budget : Nat) (done : List Char) :
    Value → Option (List Char × Nat)
  | [] => some (done, budget)
  | .char c :: rest => d.expandFrom? depth budget (c :: done) rest
  | .entity name :: rest =>
    match d.entities.lookup name with
    | none => if d.isOpen then d.expandFrom? depth budget done rest else none
    | some none => none
    | some (some text) =>
      match depth with
      | 0 => none
      | inner + 1 =>
        if budget < sizeOf text then none
        else
          match (value? text).bind (d.expandFrom? inner (budget - sizeOf text) done) with
          | some (done, budget) => d.expandFrom? (inner + 1) budget done rest
          | none => none
termination_by value => (depth, value.length)

/-- The characters of a value, and how much more may come from entities. -/
def expand? (d : DocumentType) (budget : Nat) (value : Value) : Option (List Char × Nat) :=
  (d.expandFrom? (d.entities.length + 1) budget [] value).map fun (done, budget) =>
    (done.reverse, budget)

/-- Spaces at both ends are left out, and a run of them is one space. -/
def singleSpaced (cs : List Char) : List Char :=
  let step (c : Char) (rest : List Char) : List Char :=
    if c == ' ' && (rest.isEmpty || rest.head? == some ' ') then rest else c :: rest
  (cs.foldr step []).dropWhile (· == ' ')

/-- The text of a value. Where blanks do not count, only one space is kept of each run. -/
def textOf? (d : DocumentType) (budget : Nat) (isText : Bool) (value : Value) :
    Option (String × Nat) :=
  (d.expand? budget value).map fun (cs, budget) =>
    (String.ofList (if isText then cs else singleSpaced cs), budget)

/-! ## Declarations -/

/-- Takes in an entity. -/
def addEntity? (d : DocumentType) (name : String) (text : Option (List Char)) :
    Option DocumentType := do
  let kept ←
    match text with
    | some text => (keptText? text).map some
    | none => some none
  return if (d.entities.lookup name).isSome || (knownEntities.lookup name).isSome then d
    else { d with entities := d.entities ++ [(name, kept)] }

/-- Takes in an attribute of an element. Its value is made out at once, so that only the entities
that are declared in front of it count. -/
def addAttribute? (budget : Nat) (element : Name) (d : DocumentType) (a : AttributeDeclaration) :
    Option DocumentType := do
  let value ←
    match a.value with
    | some cs => (d.textOf? budget a.isText (← value? cs)).map fun (text, _) => some text
    | none => some none
  let isNew := d.attributes.all fun b => b.element != element || b.name != a.name
  let added : DeclaredAttribute := { element, name := a.name, isText := a.isText, value }
  return if isNew then { d with attributes := d.attributes ++ [added] } else d

/-- Takes in a declaration. -/
def add? (budget : Nat) (standsAlone : Bool) (d : DocumentType) : Declaration → Option DocumentType
  | .reference => some { d with isOpen := !standsAlone, counts := standsAlone }
  | .entity name text => if d.counts then d.addEntity? name text else some d
  | .parameter (some text) => if d.counts then (keptText? text).map fun _ => d else some d
  | .attributes element attributes =>
    if d.counts then attributes.foldlM (addAttribute? budget element) d else some d
  | .parameter none | .other => some d

/-- What the declaration of a type means. -/
def ofDeclaration? (budget : Nat) (standsAlone : Bool) (t : TypeDeclaration) :
    Option DocumentType :=
  t.declarations.foldlM (add? budget standsAlone) { isOpen := t.isOpen && !standsAlone }

/-! ## Elements -/

/-- The attributes of an element with their texts: those that are written, and after them those that
are declared with a value and not written. Gives as well how much more may come from entities. -/
def attributesOf? (d : DocumentType) (budget : Nat) (element : Name)
    (written : List (Name × Value)) : Option (List Attribute × Nat) := do
  let declared := d.attributes.filter (·.element == element)
  let isText (name : Name) : Bool := ((declared.find? (·.name == name)).map (·.isText)).getD true
  let (given, budget) ← written.foldlM (fun (done, budget) (name, value) => do
    let (text, budget) ← d.textOf? budget (isText name) value
    return ((name, text) :: done, budget)) (([] : List Attribute), budget)
  let missing := declared.filterMap fun a =>
    if written.any (·.1 == a.name) then none else a.value.map fun text => (a.name, text)
  return (given.reverse ++ missing, budget)

end DocumentType

end PatternScore.Xml
