import PatternScore.Number.Scalar

/-!
# Timed events

Every source reduces its document to the same shape: for each voice a list of notes and rests on an
absolute timeline. `Event.audible` puts such a list into the order that bars are cut from.
-/

namespace PatternScore

/-- What marks notes as written in one chord: a number, a text, or a list of such marks, given as
its first element and the list of the others. -/
inductive ChordMark where
  | number (n : Int)
  | text (s : String)
  | nil
  | cons (head tail : ChordMark)
  deriving DecidableEq, Repr

/-- The mark that is a list of marks. -/
def ChordMark.ofList (marks : List ChordMark) : ChordMark :=
  marks.foldr cons nil

/-- The mark of the `group`-th chord of a voice. -/
def ChordMark.ofVoice (voice group : Nat) : ChordMark :=
  ofList [number voice, number group]

/-- A note or a rest on an absolute timeline. -/
structure Event (τ : Type) where
  /-- Start in milliseconds from the beginning of the piece. -/
  onset : τ
  /-- Length in milliseconds. -/
  duration : τ
  /-- Pitch relative to the tonic; a rest has none. -/
  pitch : Option Int := none
  /-- What the source marks as one chord. -/
  chord : Option ChordMark := none
  /-- The number of the voice. -/
  voice : Int := 0

namespace Event

variable {τ : Type} [Scalar τ]

/-- The event is silence. -/
def isRest (e : Event τ) : Bool :=
  e.pitch.isNone

/-- The time at which the event stops. -/
def stop (e : Event τ) : τ :=
  e.onset + e.duration

/-- The event is silence that takes time. -/
def isTimedRest (e : Event τ) : Bool :=
  e.isRest && !decide (e.duration ≤ Scalar.zero)

/-- The event takes time and is not a rest shorter than `epsilon`. -/
def isAudible (epsilon : τ) (e : Event τ) : Bool :=
  !decide (e.duration ≤ Scalar.zero) && !(e.isRest && decide (e.duration < epsilon))

/-- One event may stand before another: it does not begin later. -/
def precedes (e f : Event τ) : Bool :=
  !decide (f.onset < e.onset)

/-- The events of a voice in the order of their onsets, without those that cannot be heard. Events
that begin together keep their order. -/
def audible (epsilon : τ) (events : List (Event τ)) : List (Event τ) :=
  (events.filter (isAudible epsilon)).mergeSort precedes

end Event

end PatternScore
