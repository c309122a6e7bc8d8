import PatternScore.Conversion.Run
import PatternScore.Key.Degree
import PatternScore.Key.Reader
import PatternScore.Midi.Pairing

/-!
# Documents from recordings

`Recording.extract` takes the header and the voices from a recording. The header is what the first
messages of their kind say, over all tracks; the first tempo holds for the whole piece, so that bar
lines stay on the grid of beats. Every track with notes is a voice, or two where it is split at a
key into a high and a low one.
-/

namespace PatternScore.Midi

variable {τ : Type} [Scalar τ]

/-- A recording tells what sounds and no more; its times are exact fractions of a beat. -/
def policy : Policy :=
  { fillGaps := true, chordMode := .timing, quantizeMode := .fixed }

/-- How voices are taken from a recording. -/
structure Options where
  /-- The lowest key of the high voice, where tracks are split. -/
  split : Setting (Option Int) := .value (some 60)
  /-- Pitches are counted in semitones rather than degrees. -/
  chromatic : Bool := false
  deriving DecidableEq, Repr

/-! ## The header -/

/-- Quarter notes per minute, where a quarter note lasts some microseconds. -/
def tempoOf (microseconds : Int) : Except Failure τ := do
  let quotient ← Scalar.div (Scalar.ofNat 60000000) (← Scalar.ofInt microseconds : τ)
  Scalar.div (quotient * Scalar.ofNat 4) (Scalar.ofNat 4)

/-- What the messages up to some point say first. -/
structure FirstMessages (τ : Type) where
  /-- The tempo. -/
  tempo : Option τ := none
  /-- The meter. -/
  meter : Option (Int × Int) := none
  /-- The key. -/
  key : Option Key := none

/-- Takes in a message. Every tempo has to be one, though only the first is kept. -/
def FirstMessages.message (f : FirstMessages τ) : Message → Except Failure (FirstMessages τ)
  | .tempo microseconds => do
    let tempo ← tempoOf microseconds
    return { f with tempo := f.tempo.or (some tempo) }
  | .meter numerator denominator =>
    .ok { f with meter := f.meter.or (some (numerator, denominator)) }
  | .key name =>
    if f.key.isSome then .ok f
    else do return { f with key := some (← Key.read name) }
  | _ => .ok f

/-- The name that a message gives to its track, if it is not blank. -/
def nameOf? : Message → Option String
  | .trackName name => some (Text.trim name) |>.filter (!·.isEmpty)
  | _ => none

/-- The first name of a track. -/
def Track.name? (t : Track) : Option String :=
  t.findSome? fun step => nameOf? step.message

/-- The first instrument of a track. -/
def Track.program? (t : Track) : Option Int :=
  t.findSome? fun step =>
    match step.message with
    | .program number => some number
    | _ => none

/-- What the recording says about the whole piece. Its title is the name of the first track. -/
def Recording.header (r : Recording) : Except Failure (Header τ) := do
  let first ← r.merged.foldlM (fun f x => f.message x.2) ({} : FirstMessages τ)
  let (numerator, denominator) := first.meter.getD (4, 4)
  return {
    tempo := first.tempo.getD Header.defaultTempo
    numerator
    denominator
    key := first.key.getD {}
    title := ((r.tracks.headD []).name?).getD "MIDI File" }

/-! ## Voices -/

/-- Shorter notes cannot be heard. -/
def shortest : τ :=
  Scalar.ofNat 10

/-- A number of ticks in milliseconds. -/
def milliseconds (tick : τ) (ticks : Int) : Except Failure τ := do
  return (← Scalar.ofInt ticks) * tick

/-- The note is long enough to be heard. -/
def TrackNote.isAudible (tick : τ) (n : TrackNote) : Except Failure Bool := do
  return decide (shortest ≤ (← milliseconds tick (n.stop - n.start)))

/-- A note as an event of a voice. -/
def TrackNote.event (tick : τ) (pitch : Int → Int) (voice : Nat) (n : TrackNote) :
    Except Failure (Event τ) := do
  return {
    onset := ← milliseconds tick n.start
    duration := ← milliseconds tick (n.stop - n.start)
    pitch := some (pitch n.note)
    voice }

/-- The notes of one hand, with the name of the voice. -/
abbrev Hand := String × List TrackNote

/-- The hands of a track: a high and a low one if the track is split and both have notes. -/
def hands (split : Option Int) (name : String) (notes : List TrackNote) : List Hand :=
  match split with
  | none => [(name, notes)]
  | some lowest =>
    let (high, low) := notes.partition fun n => lowest ≤ n.note
    if high.isEmpty || low.isEmpty then [(name, notes)]
    else [(name ++ " (High)", high), (name ++ " (Low)", low)]

/-- A voice that is still without its events. -/
structure Line where
  /-- The name and the notes. -/
  hand : Hand
  /-- The sound, if the track has an instrument. -/
  sound : Option String
  deriving DecidableEq, Repr

/-- The voices of the track with the number `number`. Where it is split matters only if there are
notes. -/
def Track.lines (tick : τ) (split : Setting (Option Int)) (t : Track) (number : Nat) :
    Except Failure (List Line) := do
  let notes ← t.notes.filterM (TrackNote.isAudible tick)
  if notes.isEmpty then return []
  let name := t.name?.getD ("Track " ++ Text.nat (number + 1))
  let sound := t.program?.map fun program => Sound.ofProgram (some program)
  let split ← split.getIf true none (.notOrdered ">=" "int" ·)
  return (hands split name notes).map (⟨·, sound⟩)

/-- How a key becomes the pitch of a note. -/
def pitchOf (o : Options) (key : Key) : Int → Int :=
  if o.chromatic then key.offsetOfNote else key.degreeOfNote

/-! ## The document -/

/-- Takes the header and the voices from a recording. -/
def Recording.extract (o : Options) (r : Recording) : Except Failure (Document τ) := do
  if r.tracks.isEmpty then .error (.source .noTracks)
  let header ← r.header
  let tick : τ ← Scalar.div (← header.msPerBeat) (← Scalar.ofInt r.ticksPerBeat)
  let lines := (← r.tracks.zipIdx.mapM fun (t, i) => t.lines tick o.split i).flatten
  let voices ← lines.zipIdx.mapM fun (line, voice) =>
    line.hand.2.mapM (TrackNote.event tick (pitchOf o header.key) voice)
  if voices.isEmpty then .error (.source .noNotes)
  return {
    header
    voices
    names := lines.map (·.hand.1)
    instruments := lines.map (·.sound)
    pickup := Scalar.zero }

end PatternScore.Midi
