import PatternScore.MusicXml.Score
import PatternScore.Number.Scalar
import PatternScore.Text.Case
import PatternScore.Xml.Reader

/-!
# Scores given as XML

`Score.read` takes a text, `Score.ofXml` an element. Elements that a score has no place for are left
out, as are grace notes, which take no time.
-/

namespace PatternScore.MusicXml

open Xml (Element)
open Numeral (readInteger)

/-! ## Numbers -/

/-- The decimal that a text writes. -/
def decimal (s : String) : Except Failure Numeral :=
  match Numeral.readDecimal? s with
  | some n => .ok n
  | none => .error (.notADecimal s)

/-- The integer nearest to the decimal that a text writes; a half goes to the even neighbour. -/
def nearestInteger (s : String) : Except Failure Int := do
  let x : Float ← Scalar.ofNumeral (← decimal s)
  Scalar.roundEven x

/-- The integer in a child of an element, or the one that stands for its absence. -/
def integerOf (e : Element) (name : String) (default : Int) : Except Failure Int :=
  ((e.textOf? name).map readInteger).getD (.ok default)

/-- The length of an element in divisions. -/
def durationOf (e : Element) : Except Failure Int :=
  integerOf e "duration" 0

/-! ## Items of a measure -/

/-- The pitch of a note. What is not written is taken from the C in the middle. -/
def Pitch.ofXml (e : Option Element) : Pitch :=
  let text (name default : String) : String := (e.bind (·.textOf? name)).getD default
  { letter := text "step" "C"
    octave := readInteger (text "octave" "4")
    alter := nearestInteger (text "alter" "0") }

/-- A note. -/
def Note.ofXml (e : Element) : Note :=
  { duration := durationOf e
    isChord := e.hasChild "chord"
    pitch := if e.hasChild "rest" then none else some (Pitch.ofXml (e.child? "pitch")) }

/-- The repeat sign of a bar line. -/
def repeatOfXml (e : Element) : Option Item :=
  match (e.child? "repeat").bind (·.attribute? "direction") with
  | some "forward" => some .opens
  | some "backward" => some .closes
  | _ => none

/-- An item of a measure. -/
def Item.ofXml (e : Element) : Option Item :=
  match e.name with
  | "attributes" => (e.textOf? "divisions").map fun s => .divisions (readInteger s)
  | "note" => if e.hasChild "grace" then none else some (.note (Note.ofXml e))
  | "backup" => some (.backup (durationOf e))
  | "forward" => some (.forward (durationOf e))
  | "barline" => repeatOfXml e
  | _ => none

/-- A measure. -/
def Measure.ofXml (e : Element) : Measure :=
  { isImplicit := e.attribute? "implicit" == some "yes", items := e.children.filterMap Item.ofXml }

/-- A part. -/
def Part.ofXml (e : Element) : Part :=
  { id := (e.attribute? "id").getD "", measures := (e.childrenNamed "measure").map Measure.ofXml }

/-! ## The head of a score -/

/-- A text that is not empty. -/
def filled (s : Option String) : Option String :=
  s.filter (!·.isEmpty)

/-- The length of a beat in quarter notes by its name. -/
def beatNamed? : String → Option Rat
  | "whole" => some 4
  | "half" => some 2
  | "quarter" => some 1
  | "eighth" => some (1 / 2)
  | "16th" => some (1 / 4)
  | "32nd" => some (1 / 8)
  | _ => none

/-- A metronome mark; a dot makes the beat longer by half. -/
def Tempo.ofMetronome? (e : Element) : Option Tempo := do
  let perMinute ← filled (e.textOf? "per-minute")
  let beat ← beatNamed? ((e.textOf? "beat-unit").getD "quarter")
  return {
    perMinute := decimal perMinute
    beat := if e.hasChild "beat-unit-dot" then beat * (3 / 2) else beat }

/-- The first tempo that is meant for playing, or the first metronome mark that says something. -/
def Tempo.ofXml? (root : Element) : Option Tempo :=
  let played := (root.within "sound").findSome? fun e => filled (e.attribute? "tempo")
  match played with
  | some s => some { perMinute := decimal s }
  | none => (root.within "metronome").findSome? Tempo.ofMetronome?

/-- A time signature. -/
def Time.ofXml (e : Element) : Time :=
  { beats := (Text.splitOn '+' ((e.textOf? "beats").getD "4")).map readInteger
    beatType := integerOf e "beat-type" 4 }

/-- A key signature, if it has a count of sharps or flats. -/
def Signature.ofXml? (e : Element) : Option Signature :=
  (filled (e.textOf? "fifths")).map fun fifths =>
    { fifths := readInteger fifths, minor := Text.lower ((e.textOf? "mode").getD "") == "minor" }

/-- An entry of the part list. -/
def PartEntry.ofXml (e : Element) : PartEntry :=
  { id := (e.attribute? "id").getD ""
    name := (e.textOf? "part-name").getD ""
    program :=
      (filled ((e.child? "midi-instrument").bind (·.textOf? "midi-program"))).map readInteger }

/-- The title of the work, or of the movement. -/
def titleOfXml (root : Element) : Option String :=
  (filled ((root.child? "work").bind (·.textOf? "work-title"))).or
    (filled (root.textOf? "movement-title"))

/-! ## Scores -/

/-- The score that an element holds. -/
def Score.ofXml (root : Element) : Except Failure Score :=
  let parts := root.childrenNamed "part"
  if root.name != "score-partwise" then .error (.source (.unexpectedRoot root.name))
  else if parts.isEmpty then .error (.source .noParts)
  else
    .ok {
      title := titleOfXml root
      tempo := Tempo.ofXml? root
      time := (root.within "time").head?.map Time.ofXml
      signature := (root.within "key").head?.bind Signature.ofXml?
      entries := (root.within "score-part").map PartEntry.ofXml
      parts := parts.map Part.ofXml }

/-- The element that a text writes. -/
def readElement (s : String) : Except Failure Element :=
  if (Text.trim s).isEmpty then .error (.source .emptyScore)
  else
    match Element.read? s with
    | some e => .ok e
    | none => .error (.source .malformedScore)

end PatternScore.MusicXml
