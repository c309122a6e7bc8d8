import PatternScore.Abc.Header
import PatternScore.Number.Scalar

/-!
# Parsed ABC tunes

A tune is a list of lines, each of one or more staves, each of one or more voices, each a list of
elements. Durations are fractions of a whole note, pitches are steps with zero for middle C. What is
written in a way that cannot be read is a failure only for the one who needs it, so that a failure
may stand in the place of every part that is not always needed.
-/

namespace PatternScore.Abc

/-- One pitch of a note. -/
structure Pitch where
  /-- The diatonic step. -/
  step : Int
  /-- A tie from an earlier note ends here. -/
  endsTie : Bool := false
  /-- A tie to a later note begins here. -/
  startsTie : Bool := false
  deriving DecidableEq, Repr

/-- A note, a chord or a rest. -/
structure Note (τ : Type) where
  /-- The length as a fraction of a whole note. -/
  duration : τ
  /-- The factor of the tuplet that begins here, if one does. -/
  tuplet : Option τ := none
  /-- The tuplet ends here. -/
  endsTuplet : Bool := false
  /-- The element is silence. -/
  isRest : Bool := false
  /-- The pitches that sound together. -/
  pitches : Listing Pitch := []

/-- The repeat signs of a bar line. -/
structure BarLine where
  /-- A repeat closes at the line. -/
  closes : Bool := false
  /-- A repeat opens at the line. -/
  opens : Bool := false
  deriving DecidableEq, Repr

/-- What stands in a voice, one after another. -/
inductive Element (τ : Type) where
  /-- A note, a chord or a rest. -/
  | note (n : Note τ)
  /-- A bar line. -/
  | barLine (b : BarLine)
  /-- Anything without a duration. -/
  | other

/-- The numbers of a meter: none of them is known, or they are, or they cannot be read. -/
abbrev Meter := Except Failure (Option (Int × Int))

/-- One staff of a line. -/
structure Staff (τ : Type) where
  /-- The text of the key that the staff begins with. -/
  key : Except Failure (Option String) := .ok none
  /-- The meter that the staff begins with. -/
  meter : Meter := .ok none
  /-- The elements of each voice. -/
  voices : Listing (Listing (Element τ)) := []

/-- A count of beats in a minute, with the lengths that make up a beat. -/
structure Tempo (τ : Type) where
  /-- How many beats make a minute. -/
  beats : τ
  /-- The lengths that make up a beat, as fractions of a whole note. -/
  lengths : List τ

/-- A parsed tune. -/
structure Tune (τ : Type) where
  /-- The staves of each line; a line of text has none. -/
  lines : Listing (Listing (Staff τ)) := []
  /-- The title. -/
  title : Except Failure (Option String) := .ok none
  /-- The tempo. -/
  tempo : Except Failure (Option (Tempo τ)) := .ok none
  /-- The name of a sound; the inner value is absent where a list of names is empty. -/
  sound : Option (Option String) := none
  /-- The header of the text that the tune was parsed from. -/
  header : Except Failure Header := .ok []

namespace Tune

variable {τ : Type}

/-- Some line has staves. -/
def hasMusic (t : Tune τ) : Except Failure Bool :=
  t.lines.anyM fun line => do return !(← line).isEmpty

/-- The first staff, which gives the key and the meter. -/
def firstStaff (t : Tune τ) : Except Failure (Staff τ) :=
  let first : Except Failure (Listing (Staff τ)) → Option (Except Failure (Staff τ))
    | .ok staves => staves.head?
    | .error f => some (.error f)
  (t.lines.findSome? first).getD (.ok {})

/-- What one line holds of one voice. -/
structure Strand (τ : Type) where
  /-- The number of the staff in its line. -/
  staff : Nat
  /-- The number of the voice in its staff. -/
  voice : Nat
  /-- The elements. -/
  elements : Listing (Element τ)

/-- The strands of the staff that has the number `i` in its line. -/
def strandsOfStaff (i : Nat) (staff : Staff τ) : Listing (Strand τ) :=
  staff.voices.zipIdx.map fun (elements, j) => elements.map fun elements => ⟨i, j, elements⟩

/-- What a list of parts holds, one part after another; a part that could not be read is an item
that could not be read. -/
def flattened {α β : Type} (inner : α → Listing β) (xs : Listing α) : Listing β :=
  xs.flatMap fun
    | .ok x => inner x
    | .error f => [.error f]

/-- The strands of a line. -/
def strandsOfLine (staves : Listing (Staff τ)) : Listing (Strand τ) :=
  flattened (fun (i, staff) => strandsOfStaff i staff)
    (staves.zipIdx.map fun (staff, i) => staff.map fun staff => (i, staff))

/-- The strands of a tune, in the order in which they are written. -/
def strands (t : Tune τ) : Listing (Strand τ) :=
  flattened strandsOfLine t.lines

end Tune

end PatternScore.Abc
