import PatternScore.Failure
import PatternScore.Number.Numeral

/-!
# Partwise scores

A score is a list of parts, each a list of measures, each a list of items that are read one after
another. Durations are counted in divisions of a quarter note. A number in a score may be written
in a way that cannot be read; it is a failure only for the one who needs the number.
-/

namespace PatternScore.MusicXml

/-- A written pitch. -/
structure Pitch where
  /-- The letter. -/
  letter : String := "C"
  /-- The octave. -/
  octave : Except Failure Int
  /-- The semitones by which the note is altered. -/
  alter : Except Failure Int

/-- A note or a rest that takes time. -/
structure Note where
  /-- The length in divisions. -/
  duration : Except Failure Int
  /-- The note begins together with the note before it. -/
  isChord : Bool := false
  /-- The pitch; a rest has none. -/
  pitch : Option Pitch

/-- What stands in a measure. -/
inductive Item where
  /-- From here on a quarter note has this many divisions. -/
  | divisions (count : Except Failure Int)
  /-- A note or a rest. -/
  | note (n : Note)
  /-- The time goes back. -/
  | backup (duration : Except Failure Int)
  /-- The time goes on in silence. -/
  | forward (duration : Except Failure Int)
  /-- A repeat opens here. -/
  | opens
  /-- A repeat closes here. -/
  | closes

/-- A measure. -/
structure Measure where
  /-- The measure does not count, as an upbeat does not. -/
  isImplicit : Bool := false
  /-- The items in order. -/
  items : List Item := []

/-- A part. -/
structure Part where
  /-- The name by which the part list knows the part. -/
  id : String := ""
  /-- The measures. -/
  measures : List Measure := []

/-- A tempo mark. -/
structure Tempo where
  /-- How many beats make a minute. -/
  perMinute : Except Failure Numeral
  /-- The length of a beat in quarter notes. -/
  beat : Rat := 1

/-- A time signature. -/
structure Time where
  /-- The upper number, a sum of which every term is written. -/
  beats : List (Except Failure Int)
  /-- The lower number. -/
  beatType : Except Failure Int

/-- A key signature. -/
structure Signature where
  /-- The count of sharps, or of flats if negative. -/
  fifths : Except Failure Int
  /-- The mode is minor. -/
  minor : Bool := false

/-- An entry of the part list. -/
structure PartEntry where
  /-- The name by which the list knows the part. -/
  id : String
  /-- The name of the part. -/
  name : String
  /-- The number of the instrument, counted from one. -/
  program : Option (Except Failure Int) := none

/-- A score. -/
structure Score where
  /-- The title. -/
  title : Option String := none
  /-- The first tempo mark. -/
  tempo : Option Tempo := none
  /-- The first time signature. -/
  time : Option Time := none
  /-- The first key signature, if it says anything. -/
  signature : Option Signature := none
  /-- The part list. -/
  entries : List PartEntry := []
  /-- The parts. -/
  parts : List Part := []

end PatternScore.MusicXml
