import PatternScore.Midi.Message

/-!
# Notes from keys struck and released

A note lasts from the stroke of a key to its release. Where a key is struck again before it is
released, releases end the strokes in their order: the first one struck is the first one to end. A
release of a key that is not held does nothing, and keys that are held when the track ends are
released there.
-/

namespace PatternScore.Midi

/-- A note of a track, in ticks. -/
structure TrackNote where
  /-- The tick at which the note begins. -/
  start : Int
  /-- The tick at which the note ends. -/
  stop : Int
  /-- The number of the key. -/
  note : Int
  deriving DecidableEq, Repr

/-- A key of a channel. -/
structure KeyAt where
  /-- The channel. -/
  channel : Int
  /-- The number of the key. -/
  note : Int
  deriving DecidableEq, Repr

/-- The keys that are held and the notes that have ended. -/
structure Pairing where
  /-- The keys that are held, each with the tick of its stroke, in the order of the strokes. -/
  held : List (KeyAt × Int) := []
  /-- The notes that have ended, in the order of their ends. -/
  notes : List TrackNote := []
  deriving DecidableEq, Repr

namespace Pairing

/-- A key is struck. -/
def strike (p : Pairing) (key : KeyAt) (tick : Int) : Pairing :=
  { p with held := p.held ++ [(key, tick)] }

/-- A key is released, which ends the first of its strokes that are held. -/
def release (p : Pairing) (key : KeyAt) (tick : Int) : Pairing :=
  match p.held.lookup key with
  | some start =>
    { held := p.held.eraseP (·.1 == key), notes := p.notes ++ [⟨start, tick, key.note⟩] }
  | none => p

/-- A message is taken in at a tick. -/
def message (p : Pairing) : Int × Message → Pairing
  | (tick, .noteOn channel note velocity) =>
    if 0 < velocity then p.strike ⟨channel, note⟩ tick else p.release ⟨channel, note⟩ tick
  | (tick, .noteOff channel note) => p.release ⟨channel, note⟩ tick
  | _ => p

/-- The track ends, and with it all keys that are held. -/
def finish (p : Pairing) (tick : Int) : List TrackNote :=
  p.notes ++ p.held.map fun (key, start) => ⟨start, tick, key.note⟩

end Pairing

/-- Notes by start, and by key where they start together. -/
def TrackNote.precedes (x y : TrackNote) : Bool :=
  x.start < y.start || (x.start == y.start && x.note ≤ y.note)

/-- The notes of a track. -/
def Track.notes (t : Track) : List TrackNote :=
  ((t.timed.foldl Pairing.message {}).finish t.lastTick).mergeSort TrackNote.precedes

end PatternScore.Midi
