/-!
# Recordings as messages

A recording is a list of tracks, each a list of messages with the ticks that pass before them. Only
the messages that a score is made from are told apart.
-/

namespace PatternScore.Midi

/-- What a message says. -/
inductive Message where
  /-- A key is struck; with no velocity it is released. -/
  | noteOn (channel note velocity : Int)
  /-- A key is released. -/
  | noteOff (channel note : Int)
  /-- A channel gets an instrument. -/
  | program (number : Int)
  /-- The track gets a name. -/
  | trackName (name : String)
  /-- A quarter note lasts this many microseconds from here on. -/
  | tempo (microseconds : Int)
  /-- The meter from here on. -/
  | meter (numerator denominator : Int)
  /-- The key from here on. -/
  | key (name : String)
  /-- Anything else. -/
  | other
  deriving DecidableEq, Repr

/-- A message in its track. -/
structure Step where
  /-- The ticks since the message before. -/
  delta : Int
  /-- The message. -/
  message : Message
  deriving DecidableEq, Repr

/-- A track. -/
abbrev Track := List Step

/-- A decoded recording. -/
structure Recording where
  /-- The tracks. -/
  tracks : List Track
  /-- How many ticks a quarter note has. -/
  ticksPerBeat : Int := 480
  deriving DecidableEq, Repr

/-- Messages with the ticks at which they stand, the first one's counted from `tick`. -/
def timedFrom (tick : Int) : Track → List (Int × Message)
  | [] => []
  | step :: rest => (tick + step.delta, step.message) :: timedFrom (tick + step.delta) rest

/-- The messages of a track with the ticks at which they stand. -/
def Track.timed (t : Track) : List (Int × Message) :=
  timedFrom 0 t

/-- The tick at which a track ends. -/
def Track.lastTick (t : Track) : Int :=
  t.foldl (fun tick e => tick + e.delta) 0

/-- The messages of all tracks by time. Of messages at one tick, those of an earlier track come
first, and those of one track keep their order. -/
def Recording.merged (r : Recording) : List (Int × Message) :=
  (r.tracks.flatMap Track.timed).mergeSort fun x y => x.1 ≤ y.1

end PatternScore.Midi
