import PatternScore.Xml.Value

/-!
# Declarations of the type of a document

A document may declare its type: the name of its outermost element, where declarations stand that
are not in the document, and declarations of its own between brackets. A declaration is cut into
tokens first, and `declaration?` says which rows of tokens are one. What the declarations mean for
the document is not told here.
-/

namespace PatternScore.Xml

/-! ## Tokens -/

/-- A token of a declaration. -/
inductive Token where
  /-- A name without a colon. -/
  | name (name : String)
  /-- A name with one colon. -/
  | prefixed (name : Name)
  /-- A name with a sign behind it that says how often it may occur. -/
  | counted
  /-- Any other word of the characters that names are made of. -/
  | word
  /-- The characters between two quotes. -/
  | literal (chars : List Char)
  /-- A name behind a number sign. -/
  | keyword (name : String)
  /-- A percent sign that stands alone. -/
  | percent
  /-- An opening parenthesis. -/
  | opens
  /-- A closing parenthesis, with the sign behind it that says how often. -/
  | closes (count : Option Char)
  /-- A bar or a comma between two items. -/
  | separator (sign : Char)
  deriving DecidableEq, Repr

/-- A sign that says how often something may occur. -/
def isCount (c : Char) : Bool :=
  c == '?' || c == '*' || c == '+'

/-- The rest, if one of the characters stands in front of it or a blank does. -/
def before? (signs : String) (rest : List Char) : Option (List Char) :=
  if rest.head?.any fun c => isSpace c || signs.toList.contains c then some rest else none

/-- A name that is read, with the sign of how often behind it. -/
def counted? (t : Token) (rest : List Char) : Option (Token × List Char) :=
  match rest with
  | c :: behind =>
    if isCount c then some (.counted, behind)
    else (before? ">),|[%" rest).map fun rest => (t, rest)
  | [] => none

/-- A word of the characters that names are made of, or of colons. -/
def word? (cs : List Char) : Option (Token × List Char) :=
  let isMore (c : Char) : Bool := isNameChar c || c == ':'
  let other : Option (Token × List Char) :=
    (before? ">),|[%" (cs.dropWhile isMore)).map fun rest => (.word, rest)
  match simpleName? cs with
  | none => other
  | some (first, ':' :: rest) =>
    let second := rest.takeWhile isNameChar
    let behind := rest.dropWhile isNameChar
    if second.isEmpty || behind.head? == some ':' then other
    else counted? (.prefixed { space := first, name := String.ofList second }) behind
  | some (first, rest) => counted? (.name first) rest

/-- The next token. -/
def token? : List Char → Option (Token × List Char)
  | [] => none
  | c :: cs =>
    if c == '"' || c == '\'' then do
      let (chars, rest) ← quotedBy? c cs
      return (.literal chars, ← before? ">[%" rest)
    else if c == '#' then do
      let (name, rest) ← simpleName? cs
      return (.keyword name, ← before? ">)|%" rest)
    else if c == '%' then (before? "%" cs).map fun rest => (.percent, rest)
    else if c == '(' then some (.opens, cs)
    else if c == ')' then
      match cs with
      | count :: rest =>
        if isCount count then some (.closes (some count), rest)
        else (before? ">),|" cs).map fun rest => (.closes none, rest)
      | [] => none
    else if c == '|' || c == ',' then some (.separator c, cs)
    else if isNameChar c || c == ':' then word? (c :: cs)
    else none

/-- The tokens up to an angle or a bracket; those that are read are given last first. -/
def tokensFrom? : Nat → List Token → List Char → Option (List Token × List Char)
  | 0, _, _ => none
  | bound + 1, done, cs =>
    match skipSpace cs with
    | '>' :: rest => some (done.reverse, '>' :: rest)
    | '[' :: rest => some (done.reverse, '[' :: rest)
    | rest =>
      match token? rest with
      | some (t, rest) => tokensFrom? bound (t :: done) rest
      | none => none

/-- The tokens up to an angle or a bracket; a blank stands in front of them. -/
def tokens? (cs : List Char) : Option (List Token × List Char) := do
  tokensFrom? (cs.length + 1) [] (← behindSpace? cs)

/-! ## What is declared -/

/-- What an attribute of an element is declared to be. -/
structure AttributeDeclaration where
  /-- The name of the attribute. -/
  name : Name
  /-- Its value is any text, so that blanks in it count. -/
  isText : Bool
  /-- The value of an attribute that is not written, as it stands between quotes. -/
  value : Option (List Char)
  deriving Repr

/-- A declaration. The text of an entity is not given if it stands elsewhere. -/
inductive Declaration where
  /-- An entity for the text of the document. -/
  | entity (name : String) (text : Option (List Char))
  /-- An entity for declarations. -/
  | parameter (text : Option (List Char))
  /-- Attributes of an element. -/
  | attributes (element : Name) (attributes : List AttributeDeclaration)
  /-- A reference to declarations that stand elsewhere. -/
  | reference
  /-- A declaration that has no bearing on the content of a document. -/
  | other
  deriving Repr

/-- A character of a public name. -/
def isPublic (c : Char) : Bool :=
  c.isAlphanum || " \n-'()+,./:=?;!*#@$_%".toList.contains c

/-- The tokens behind those that say where something stands. -/
def behindPlace? : List Token → Option (List Token)
  | .name "SYSTEM" :: .literal _ :: rest => some rest
  | .name "PUBLIC" :: .literal publicName :: .literal _ :: rest =>
    if publicName.all isPublic then some rest else none
  | _ => none

/-- The text of an entity for declarations: written out, or elsewhere. -/
def parameterText? : List Token → Option (Option (List Char))
  | [.literal text] => some (some text)
  | rest => if behindPlace? rest == some [] then some none else none

/-- The text of an entity; an entity that stands elsewhere may be in a notation of its own. -/
def entityText? (rest : List Token) : Option (Option (List Char)) :=
  match behindPlace? rest with
  | some [.name "NDATA", .name _] => some none
  | _ => parameterText? rest

/-- The tokens of a notation, behind its name. -/
def isNotation : List Token → Bool
  | [.name "PUBLIC", .literal publicName] => publicName.all isPublic
  | rest => behindPlace? rest == some []

/-! ## Content of elements -/

/-- A name, which may say how often. -/
def isItem : Token → Bool
  | .name _ | .prefixed _ | .counted => true
  | _ => false

/-- The tokens go on with groups in parentheses and end with the last of them. For each open group,
the innermost first, the sign is given that separates its items; all of them have the same. -/
def closesGroups : Bool → List (Option Char) → List Token → Bool
  | true, groups, .opens :: rest => closesGroups true (none :: groups) rest
  | true, groups, t :: rest => isItem t && closesGroups false groups rest
  | false, [_], [.closes _] => true
  | false, _ :: outer :: groups, .closes _ :: rest => closesGroups false (outer :: groups) rest
  | false, sign :: groups, .separator c :: rest =>
    (sign.isNone || sign == some c) && closesGroups true (some c :: groups) rest
  | _, _, _ => false

/-- The tokens go on with names between which elements and text may stand in any order. -/
def closesMixed : List Token → Bool
  | [.separator '|', .name _, .closes (some '*')] => true
  | [.separator '|', .prefixed _, .closes (some '*')] => true
  | .separator '|' :: .name _ :: rest => closesMixed rest
  | .separator '|' :: .prefixed _ :: rest => closesMixed rest
  | _ => false

/-- The tokens say what an element may contain. -/
def isContent : List Token → Bool
  | [.name "EMPTY"] | [.name "ANY"] => true
  | [.opens, .keyword "PCDATA", .closes none] => true
  | [.opens, .keyword "PCDATA", .closes (some '*')] => true
  | .opens :: .keyword "PCDATA" :: rest => closesMixed rest
  | .opens :: rest => closesGroups true [none] rest
  | _ => false

/-! ## Attributes -/

/-- The types of attributes that are told by one word. -/
def attributeTypes : List String :=
  ["CDATA", "ID", "IDREF", "IDREFS", "ENTITY", "ENTITIES", "NMTOKEN", "NMTOKENS"]

/-- The tokens behind alternatives and the parenthesis that closes them. -/
def behindAlternatives? (isAlternative : Token → Bool) : List Token → Option (List Token)
  | t :: .closes none :: rest => if isAlternative t then some rest else none
  | t :: .separator '|' :: rest =>
    if isAlternative t then behindAlternatives? isAlternative rest else none
  | _ => none

/-- The type of an attribute: whether it is any text, and the tokens behind it. -/
def attributeType? : List Token → Option (Bool × List Token)
  | .name "NOTATION" :: .opens :: rest =>
    (behindAlternatives? (fun | .name _ => true | _ => false) rest).map fun rest => (false, rest)
  | .opens :: rest =>
    (behindAlternatives? (fun | .name _ | .prefixed _ | .word => true | _ => false) rest).map
      fun rest => (false, rest)
  | .name type :: rest =>
    if attributeTypes.contains type then some (type == "CDATA", rest) else none
  | _ => none

/-- The value of an attribute that is not written, and the tokens behind it. -/
def attributeDefault? : List Token → Option (Option (List Char) × List Token)
  | .keyword "IMPLIED" :: rest | .keyword "REQUIRED" :: rest => some (none, rest)
  | .keyword "FIXED" :: .literal value :: rest | .literal value :: rest => some (some value, rest)
  | _ => none

/-- The name of an element or an attribute. -/
def Token.name? : Token → Option Name
  | .name n => some { name := n }
  | .prefixed n => some n
  | _ => none

/-- The attributes that tokens declare; those that are read are given last first. -/
def attributesFrom? : Nat → List AttributeDeclaration → List Token →
    Option (List AttributeDeclaration)
  | _, done, [] => some done.reverse
  | 0, _, _ :: _ => none
  | bound + 1, done, t :: rest => do
    let name ← t.name?
    let (isText, rest) ← attributeType? rest
    let (value, rest) ← attributeDefault? rest
    attributesFrom? bound ({ name, isText, value } :: done) rest

/-! ## Declarations -/

/-- The declaration that a word and the tokens behind it make. -/
def declarationOf? (word : String) (tokens : List Token) : Option Declaration :=
  match word, tokens with
  | "ENTITY", .percent :: .name _ :: rest => (parameterText? rest).map .parameter
  | "ENTITY", .name name :: rest => (entityText? rest).map (.entity name)
  | "NOTATION", .name _ :: rest => if isNotation rest then some .other else none
  | "ELEMENT", t :: rest => if t.name?.isSome && isContent rest then some .other else none
  | "ATTLIST", t :: rest => do
    return .attributes (← t.name?) (← attributesFrom? rest.length [] rest)
  | _, _ => none

/-- A declaration whose opening is read. -/
def declaration? (cs : List Char) : Option (Declaration × List Char) := do
  let (word, rest) ← simpleName? cs
  let (tokens, rest) ← tokens? rest
  return (← declarationOf? word tokens, ← behind? ">" rest)

/-- The declarations up to a closing bracket; those that are read are given last first. -/
def declarationsFrom? : Nat → List Declaration → List Char →
    Option (List Declaration × List Char)
  | 0, _, _ => none
  | bound + 1, done, cs =>
    match skipSpace cs with
    | ']' :: rest => some (done.reverse, rest)
    | '%' :: rest =>
      match entityName? rest with
      | some (_, rest) => declarationsFrom? bound (.reference :: done) rest
      | none => none
    | '<' :: '?' :: rest => (instructionEnd? rest).bind (declarationsFrom? bound done)
    | '<' :: '!' :: '-' :: '-' :: rest => (commentEnd? rest).bind (declarationsFrom? bound done)
    | '<' :: '!' :: rest =>
      match declaration? rest with
      | some (d, rest) => declarationsFrom? bound (d :: done) rest
      | none => none
    | _ => none

/-- The declaration of the type of a document. -/
structure TypeDeclaration where
  /-- More is declared elsewhere. -/
  isOpen : Bool
  /-- The declarations in the document. -/
  declarations : List Declaration := []
  deriving Repr

/-- More is declared elsewhere, as the tokens of a type tell: a name, and perhaps a place. -/
def isOpenType? : List Token → Option Bool
  | [] => none
  | t :: rest =>
    if t.name?.isNone then none
    else if rest.isEmpty then some false
    else if behindPlace? rest == some [] then some true
    else none

/-- The declaration of a type whose opening is read. -/
def typeDeclaration? (cs : List Char) : Option (TypeDeclaration × List Char) := do
  let (tokens, rest) ← tokens? cs
  let isOpen ← isOpenType? tokens
  let (declarations, rest) ←
    match rest with
    | '[' :: rest => declarationsFrom? (rest.length + 1) [] rest
    | rest => some ([], rest)
  return ({ isOpen, declarations }, ← behind? ">" (skipSpace rest))

end PatternScore.Xml
