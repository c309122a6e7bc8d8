import PatternScore.Pattern.Basic
import PatternScore.Section
import PatternScore.Failure

/-!
# Arranging voices

The voices of a piece are padded to one length and become a composition: every voice plays its bars,
or its section arrays, one after another, and several voices play together. A sound that all voices
share belongs to the whole program, different ones to each voice.
-/

namespace PatternScore

/-- One voice of a piece. -/
structure Part where
  /-- The name of the voice's bar array. -/
  array : String
  /-- The name of the voice. -/
  name : String
  /-- The bars of the voice. -/
  catalog : Catalog
  /-- The sound of the voice. -/
  sound : String
  deriving Repr

namespace Part

/-- The entry that the voice plays at a place; a negative place counts from the end. -/
def entryAt (p : Part) (place : Int) : Except Failure BarRef :=
  let place := if place < 0 then place + p.catalog.length else place
  match if place < 0 then none else p.catalog.indices[place.toNat]? with
  | some index => .ok ⟨p.array, index⟩
  | none => .error .noSuchBar

/-- The places of a section. -/
def places (s : Section) : List Int :=
  (List.range s.length.toNat).map fun (i : Nat) => s.start + i

/-- The name of a section array of the voice; where there are several voices it tells which. -/
def sectionName (several : Bool) (p : Part) (s : Section) : String :=
  if several then p.array ++ "_" ++ s.name else s.name

/-- The declaration of a section of the voice. -/
def sectionArray (several : Bool) (p : Part) (s : Section) : Except Failure SectionArray := do
  let refs ← (places s).mapM p.entryAt
  return ⟨p.sectionName several s, refs⟩

/-- The declaration of the voice's bars. -/
def barArray (p : Part) : BarArray :=
  ⟨p.array, p.catalog.unique⟩

/-- The section arrays of the voice, and the pattern that plays them, or that plays all bars if
there are no sections. -/
def play (several : Bool) (sections : List Section) (p : Part) :
    Except Failure (List SectionArray × Node) :=
  if sections.isEmpty then
    .ok ([], .cat (p.catalog.indices.map fun (i : Nat) => .bar p.array i))
  else do
    let arrays ← sections.mapM (p.sectionArray several)
    return (arrays, .cat (arrays.map fun a => .sectionRef a.name))

/-- The voice, padded to a number of bars. -/
def padTo (length : Nat) (p : Part) : Part :=
  { p with catalog := p.catalog.padTo length }

/-- All voices, padded to the length of the longest. -/
def pad (parts : List Part) : List Part :=
  parts.map (padTo (Catalog.longest (parts.map (·.catalog))))

end Part

namespace Composition

/-- What is played, from the patterns of the voices and their sounds. -/
def programOf (scale : String) (first : Node × String) (rest : List (Node × String)) : Program :=
  if rest.isEmpty then ⟨first.1, scale, some first.2⟩
  else if rest.all (·.2 == first.2) then
    ⟨.stack ((first :: rest).map (·.1)), scale, some first.2⟩
  else ⟨.stack ((first :: rest).map fun (node, sound) => .voiced node sound), scale, none⟩

/-- The composition of some voices, given by their sections if there are any. -/
def arrange (parts : List Part) (scale : String) (title : String) (cyclesPerMinute : Int)
    (sections : List Section) : Except Failure Composition := do
  let parts := Part.pad parts
  let played ← parts.mapM (Part.play (decide (1 < parts.length)) sections)
  match (played.map (·.2)).zip (parts.map (·.sound)) with
  | [] => .error .noVoices
  | first :: rest =>
    return {
      title, cyclesPerMinute
      arrays := parts.map Part.barArray
      sections := (played.map (·.1)).flatten
      program := programOf scale first rest }

end Composition

end PatternScore
