import PatternScore.Key.Basic
import PatternScore.Text.Case

/-!
# Pitches as degrees of a key

A pitch leaves a source as a number relative to the tonic in the octave of middle C: as a degree of
the scale, seven to an octave, or as a count of semitones. A note between two steps of the scale
counts as the lower one.
-/

namespace PatternScore

/-- The octave whose tonic is degree zero. -/
def referenceOctave : Int := 4

namespace Key

/-- The note number of the tonic in the reference octave. -/
def tonicNote (k : Key) : Int :=
  12 * (referenceOctave + 1) + k.tonicPitchClass

/-- The degree of a note number: seven for each octave, and the last step not above the note. -/
def degreeOfNote (k : Key) (note : Int) : Int :=
  let distance := note - k.tonicNote
  let step := k.mode.intervals.countP (· ≤ distance % 12)
  distance / 12 * 7 + (step - 1)

/-- The semitones from the tonic up to a note number. -/
def offsetOfNote (k : Key) (note : Int) : Int :=
  note - k.tonicNote

/-- The degree of a written letter in an octave; accidentals do not count. -/
def degreeOfLetter (k : Key) (letter : Letter) (octave : Int) : Int :=
  (octave * 7 + letter.step) - (referenceOctave * 7 + k.root.letter.step)

/-- The degree of a letter given by name, in upper or lower case. -/
def degreeOfName (k : Key) (name : String) (octave : Int) : Except Failure Int :=
  let name := Text.upper name
  match Letter.ofString? name with
  | some letter => .ok (k.degreeOfLetter letter octave)
  | none => .error (.unknownName name)

end Key

end PatternScore
