import PatternScore.Bar.Catalog

/-!
# Patterns and compositions

A pattern is a tree. Its leaves point at a bar of a bar array or at a section array; above them,
patterns are played one after another or together, and a voice may get a sound of its own. A
composition declares the arrays and plays one pattern on a scale.
-/

namespace PatternScore

/-- A pattern. -/
inductive Node where
  /-- The bar at a place of a bar array. -/
  | bar (array : String) (index : Int)
  /-- All bars of a section array, in order. -/
  | sectionRef (name : String)
  /-- Patterns one after another. -/
  | cat (items : List Node)
  /-- Patterns together. -/
  | stack (items : List Node)
  /-- A pattern with a sound of its own. -/
  | voiced (pattern : Node) (sound : String)
  deriving Repr

/-- A pattern on a scale, with the sound of all its voices if they share one. -/
structure Program where
  /-- The pattern. -/
  body : Node
  /-- The name of the scale. -/
  scale : String
  /-- The sound of all voices. -/
  sound : Option String := none
  deriving Repr

/-- The place of a bar in a bar array. -/
structure BarRef where
  /-- The name of the array. -/
  array : String
  /-- The place in the array. -/
  index : Nat
  deriving DecidableEq, Repr

/-- The pattern that plays one bar. -/
def BarRef.node (r : BarRef) : Node :=
  .bar r.array r.index

/-- The declaration of the different bars of a voice. -/
structure BarArray where
  /-- The name of the array. -/
  name : String
  /-- The bars. -/
  bars : List UniqueBar
  deriving DecidableEq, Repr

/-- The declaration of a section of a voice. -/
structure SectionArray where
  /-- The name of the array. -/
  name : String
  /-- The bars of the section. -/
  refs : List BarRef
  deriving DecidableEq, Repr

/-- Everything that a program's text tells. -/
structure Composition where
  /-- The title, which may have several lines. -/
  title : String
  /-- The tempo in bars per minute. -/
  cyclesPerMinute : Int
  /-- The bar arrays, one for each voice. -/
  arrays : List BarArray
  /-- The section arrays. -/
  sections : List SectionArray
  /-- What is played. -/
  program : Program
  /-- Further comments. -/
  comments : List String := []
  deriving Repr

end PatternScore
