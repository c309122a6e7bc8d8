import PatternScore.Bar.Slot
import PatternScore.Key.Degree
import PatternScore.MusicXml.Score
import PatternScore.Timeline.Header

/-!
# Walking through a part

A part is walked through measure by measure. Within a measure a cursor goes on with every note and
forward step and back with every backup. A measure lasts a bar, whatever it holds; only a first
measure that does not count lasts as long as what is written in it.

A note that a part writes twice, with the same onset, length and pitch to a thousandth, is one
event: two voices that share a note write it once each.
-/

namespace PatternScore.MusicXml

variable {τ : Type} [Scalar τ]

/-- What a part is walked through with. -/
structure Setting (τ : Type) where
  /-- The length of a quarter note. -/
  beat : τ
  /-- The length of a bar. -/
  barLength : τ
  /-- The key. -/
  key : Key
  /-- Pitches are counted in semitones rather than degrees. -/
  chromatic : Bool := false
  /-- The number of the voice. -/
  voice : Nat

/-- What a note is recognised by: its onset and its length in thousandths of a millisecond, and its
pitch. -/
structure NoteMark where
  /-- The onset. -/
  onset : Value
  /-- The length. -/
  duration : Value
  /-- The pitch; a rest has none. -/
  pitch : Option Int
  deriving DecidableEq

/-- How far a part is walked through. -/
structure Walk (τ : Type) where
  /-- How many divisions a quarter note has. -/
  divisions : Int := 1
  /-- The count of notes and chords. -/
  groups : Nat := 0
  /-- The events in the order in which they are written. -/
  events : List (Event τ) := []
  /-- The notes among the events. -/
  seen : List NoteMark := []
  /-- The repeat marks of the measures. -/
  markers : Markers := []
  /-- The start of the measure. -/
  start : τ
  /-- The length of an upbeat. -/
  pickup : τ

/-- How far a measure is walked through. -/
structure MeasureWalk (τ : Type) where
  /-- The time since the start of the measure. -/
  cursor : τ
  /-- The latest time that the cursor reached. -/
  furthest : τ
  /-- The time at which the last note began. -/
  onset : τ
  /-- A repeat opens in the measure. -/
  opens : Bool := false
  /-- A repeat closes in the measure. -/
  closes : Bool := false

/-! ## Pitches and lengths -/

/-- The pitch of a note relative to the tonic. -/
def Pitch.relative (p : Pitch) (s : Setting τ) : Except Failure Int := do
  let octave ← p.octave
  if s.chromatic then
    let alter ← p.alter
    match NoteName.ofString? p.letter with
    | some name => return s.key.offsetOfNote (12 * (octave + 1) + name.pitchClass + alter)
    | none => .error (.unknownName p.letter)
  else s.key.degreeOfName p.letter octave

/-- A length in milliseconds. -/
def Walk.milliseconds (w : Walk τ) (s : Setting τ) (duration : Except Failure Int) :
    Except Failure τ := do
  return (← Scalar.ratio (← duration) w.divisions) * s.beat

/-- A time in thousandths; a half goes to the even neighbour. -/
def thousandths (x : τ) : Value :=
  match Scalar.value x with
  | .finite q => .finite (roundHalfEven (q * 1000))
  | v => v

/-- What a note is recognised by. -/
def NoteMark.of (onset duration : τ) (pitch : Option Int) : NoteMark :=
  ⟨thousandths onset, thousandths duration, pitch⟩

/-- The note is one of those that are written already. A time that is no number is never the same as
another. -/
def Walk.isSeen (w : Walk τ) (m : NoteMark) : Bool :=
  m.onset != .undefined && m.duration != .undefined && w.seen.contains m

/-- An event of the chord that was counted last. -/
def Walk.event (w : Walk τ) (s : Setting τ) (onset duration : τ) (pitch : Option Int) : Event τ :=
  { onset, duration, pitch, chord := some (.ofVoice s.voice w.groups), voice := s.voice }

/-! ## Items -/

/-- A note: it begins at the cursor, or with the note before it if they make a chord. -/
def note (s : Setting τ) (w : Walk τ) (m : MeasureWalk τ) (n : Note) :
    Except Failure (Walk τ × MeasureWalk τ) := do
  let duration ← w.milliseconds s n.duration
  let (w, m) :=
    if n.isChord then (w, m)
    else
      ({ w with groups := w.groups + 1 },
        { m with onset := m.cursor, cursor := m.cursor + duration })
  let pitch ← n.pitch.mapM (·.relative s)
  let start := w.start + m.onset
  let mark := NoteMark.of start duration pitch
  if w.isSeen mark then return (w, m)
  return ({ w with
    seen := mark :: w.seen
    events := w.events ++ [w.event s start duration pitch] }, m)

/-- An item of a measure. -/
def item (s : Setting τ) : Walk τ × MeasureWalk τ → Item → Except Failure (Walk τ × MeasureWalk τ)
  | (w, m), .divisions count => do return ({ w with divisions := ← count }, m)
  | (w, m), .note n => note s w m n
  | (w, m), .backup duration => do
    return (w, { m with cursor := m.cursor - (← w.milliseconds s duration) })
  | (w, m), .forward duration => do
    let duration ← w.milliseconds s duration
    let w := { w with groups := w.groups + 1 }
    let event := w.event s (w.start + m.cursor) duration none
    return ({ w with events := w.events ++ [event] }, { m with cursor := m.cursor + duration })
  | (w, m), .opens => .ok (w, { m with opens := true })
  | (w, m), .closes => .ok (w, { m with closes := true })

/-- An item of a measure, after which the latest time is brought up to date. -/
def step (s : Setting τ) (x : Walk τ × MeasureWalk τ) (i : Item) :
    Except Failure (Walk τ × MeasureWalk τ) := do
  let (w, m) ← item s x i
  return (w, { m with furthest := Scalar.max m.furthest m.cursor })

/-! ## Measures -/

/-- The repeat mark of a measure. -/
def MeasureWalk.mark? (m : MeasureWalk τ) : Option RepeatMark :=
  match m.opens, m.closes with
  | true, true => some .both
  | true, false => some .opens
  | false, true => some .closes
  | false, false => none

/-- The measure is an upbeat: the first one, it does not count, and it is shorter than a bar. -/
def isUpbeat (s : Setting τ) (index : Nat) (x : Measure) (furthest : τ) : Bool :=
  index == 0 && x.isImplicit && Scalar.isPositive furthest && decide (furthest < s.barLength)

/-- The measure with the number `index`. -/
def measure (s : Setting τ) (w : Walk τ) (x : Measure × Nat) : Except Failure (Walk τ) := do
  let (x, index) := x
  let before : MeasureWalk τ := ⟨Scalar.zero, Scalar.zero, Scalar.zero, false, false⟩
  let (w, m) ← x.items.foldlM (step s) (w, before)
  let w :=
    match m.mark? with
    | some mark => { w with markers := w.markers.set index mark }
    | none => w
  if isUpbeat s index x m.furthest then
    return { w with pickup := m.furthest, start := w.start + m.furthest }
  else return { w with start := w.start + s.barLength }

/-- Walks through a part. -/
def Part.walk (s : Setting τ) (p : Part) : Except Failure (Walk τ) :=
  p.measures.zipIdx.foldlM (measure s) { start := Scalar.zero, pickup := Scalar.zero }

end PatternScore.MusicXml
