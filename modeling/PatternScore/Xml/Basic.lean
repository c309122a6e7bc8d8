import PatternScore.Text.Blank

/-!
# XML elements

A document is one element. Of an element stay its name without the namespace, its attributes without
a namespace, its children, and the text in front of the first child.
-/

namespace PatternScore.Xml

/-- An element. -/
inductive Element where
  /-- An element of a name. -/
  | node (name : String) (attributes : List (String × String)) (lead : Option String)
    (children : List Element)
  deriving Repr

namespace Element

/-- The name without the namespace. -/
def name : Element → String
  | node name _ _ _ => name

/-- The attributes without a namespace. -/
def attributes : Element → List (String × String)
  | node _ attributes _ _ => attributes

/-- The text in front of the first child, if there is any. -/
def lead : Element → Option String
  | node _ _ lead _ => lead

/-- The children in order. -/
def children : Element → List Element
  | node _ _ _ children => children

/-- The value of an attribute. -/
def attribute? (e : Element) (name : String) : Option String :=
  e.attributes.lookup name

/-- The children of a name. -/
def childrenNamed (e : Element) (name : String) : List Element :=
  e.children.filter (·.name == name)

/-- The first child of a name. -/
def child? (e : Element) (name : String) : Option Element :=
  e.children.find? (·.name == name)

/-- There is a child of the name. -/
def hasChild (e : Element) (name : String) : Bool :=
  (e.child? name).isSome

/-- The text of the first child of a name, without white space around it. -/
def textOf? (e : Element) (name : String) : Option String :=
  (e.child? name).bind fun child => child.lead.map Text.trim

mutual

/-- The elements of a name within an element, itself included, in the order of their start tags. -/
def within (wanted : String) : Element → List Element
  | node name attributes lead children =>
    let inner := withinAll wanted children
    if name == wanted then node name attributes lead children :: inner else inner

/-- The elements of a name within some elements. -/
def withinAll (wanted : String) : List Element → List Element
  | [] => []
  | e :: rest => within wanted e ++ withinAll wanted rest

end

end Element

end PatternScore.Xml
