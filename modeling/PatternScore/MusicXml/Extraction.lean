import PatternScore.Conversion.Run
import PatternScore.MusicXml.Walk

/-!
# Documents from scores

`Score.extract` takes the header and the voices from a score; every part is a voice. The part list
gives a part its name and its instrument.
-/

namespace PatternScore.MusicXml

variable {τ : Type} [Scalar τ]

/-- A score writes rests out and marks chords; its times are exact fractions of a beat. -/
def policy : Policy :=
  { fillGaps := false, chordMode := .group, quantizeMode := .fixed }

namespace Score

/-! ## The header -/

/-- A tempo mark in quarter notes per minute. -/
def quartersOf (t : Tempo) : Except Failure τ := do
  let perMinute : τ ← Scalar.ofNumeral (← t.perMinute)
  return if t.beat = 1 then perMinute else perMinute * Scalar.nearest t.beat

/-- The numbers of a time signature. -/
def meterOf (t : Time) : Except Failure (Int × Int) := do
  let beats ← t.beats.mapM id
  return (beats.foldl (· + ·) 0, ← t.beatType)

/-- The meter; one that cannot be read makes the score unusable. -/
def meter (s : Score) : Except Failure (Int × Int) :=
  match s.time with
  | some t => (meterOf t).mapError fun f => .source (.unreadableMeter f.message)
  | none => .ok (4, 4)

/-- The key of a key signature. -/
def keyOf (s : Signature) : Except Failure Key := do
  Key.ofFifths (← s.fifths) (if s.minor then .minor else .major)

/-- The key; one that cannot be read makes the score unusable. -/
def key (s : Score) : Except Failure Key :=
  match s.signature with
  | some x => (keyOf x).mapError fun f => .source (.unreadableSignature f.message)
  | none => .ok {}

/-- What the score says about the whole piece. -/
def header (s : Score) : Except Failure (Header τ) := do
  let tempo ←
    match s.tempo with
    | some t => quartersOf t
    | none => .ok Header.defaultTempo
  let (numerator, denominator) ← s.meter
  return { tempo, numerator, denominator, key := ← s.key, title := s.title.getD "Untitled" }

/-! ## Parts -/

/-- The instruments of the part list, by the names of the parts. -/
def programs (s : Score) : Except Failure (List (String × Int)) := do
  let found ← s.entries.mapM fun e => do
    match e.program with
    | some program => return [(e.id, (← program) - 1)]
    | none => return []
  return found.flatten

/-- The last entry for a part. -/
def last? {α : Type} (entries : List (String × α)) (id : String) : Option α :=
  entries.reverse.lookup id

/-- The name of a part, or its number if the list has no name for it. -/
def partName (s : Score) (part : Part) (voice : Nat) : String :=
  ((last? (s.entries.map fun e => (e.id, e.name)) part.id).filter (!·.isEmpty)).getD
    ("Part " ++ Text.nat (voice + 1))

/-! ## The document -/

/-- Takes the header and the voices from a score. -/
def extract (chromatic : Bool) (s : Score) : Except Failure (Document τ) := do
  let header ← s.header
  let programs ← s.programs
  let barLength ← header.barLength
  let beat ← header.msPerBeat
  let setting : Setting τ := { beat, barLength, key := header.key, chromatic, voice := 0 }
  let walks ← s.parts.zipIdx.mapM fun (part, voice) => part.walk { setting with voice }
  return {
    header
    voices := walks.map (·.events)
    names := s.parts.zipIdx.map fun (part, voice) => s.partName part voice
    instruments := s.parts.map fun part =>
      (last? programs part.id).map fun program => Sound.ofProgram (some program)
    markers := walks.map (·.markers)
    pickup := (walks.head?.map (·.pickup)).getD Scalar.zero }

end Score

end PatternScore.MusicXml
