import PatternScore.Abc.Tune
import PatternScore.Bar.Slot

/-!
# Voices of an ABC tune

`Voice` is the state in which a voice is read: a cursor on the timeline, the events so far, the
ties that are open, and the bars counted at bar lines. `Voice.note` takes a note in, `Voice.barLine`
a bar line. The state is carried over the ends of lines.
-/

namespace PatternScore.Abc

variable {τ : Type} [Scalar τ]

/-- A voice while it is being read. -/
structure Voice (τ : Type) where
  /-- The end of what is read. -/
  cursor : τ
  /-- The start of the bar that is being read. -/
  barStart : τ
  /-- How many bars are closed. -/
  bars : Nat := 0
  /-- Something stands in the bar that is being read. -/
  hasContent : Bool := false
  /-- The events, in the order in which they were written. -/
  events : List (Event τ) := []
  /-- The repeat marks of the bars. -/
  markers : Markers := []
  /-- For each degree with an open tie, the place of the event that the tie begins at. -/
  ties : List (Int × Nat) := []
  /-- The length of an upbeat. -/
  pickup : τ
  /-- The factor of the tuplet that is being read. -/
  tuplet : τ

namespace Voice

/-- A voice of which nothing is read. -/
def start : Voice τ :=
  { cursor := Scalar.zero
    barStart := Scalar.zero
    pickup := Scalar.zero
    tuplet := Scalar.ofNat 1 }

/-! ## Notes -/

/-- What a note is read with. -/
structure Place (τ : Type) where
  /-- The length of a quarter note. -/
  beat : τ
  /-- The step of the tonic, which is degree zero. -/
  tonic : Int
  /-- The number of the voice. -/
  voice : Nat
  /-- The number of the note in the whole tune, which marks its pitches as one chord. -/
  group : Nat

/-- An event of the note at a place. -/
def Place.event (p : Place τ) (onset duration : τ) (degree : Option Int) : Event τ :=
  { onset, duration, pitch := degree, chord := some (.ofVoice p.voice p.group), voice := p.voice }

/-- The ties but for one degree's. -/
def otherTies (ties : List (Int × Nat)) (degree : Int) : List (Int × Nat) :=
  ties.filter (·.1 != degree)

/-- Extends the event at a place of the list up to the cursor. -/
def extend (v : Voice τ) (index : Nat) : Voice τ :=
  { v with events := v.events.modify index fun e => { e with duration := v.cursor - e.onset } }

/-- Takes in one pitch of a note that ends at the cursor. A pitch that ends an open tie extends the
event at which the tie began; any other is an event of its own. -/
def pitch (v : Voice τ) (p : Place τ) (onset duration : τ) (x : Pitch) : Voice τ :=
  let degree := x.step - p.tonic
  let tied := if x.endsTie then v.ties.lookup degree else none
  let (v, index) :=
    match tied with
    | some index => ({ v.extend index with ties := otherTies v.ties degree }, index)
    | none =>
      ({ v with events := v.events ++ [p.event onset duration (some degree)] }, v.events.length)
  if x.startsTie then { v with ties := (degree, index) :: otherTies v.ties degree } else v

/-- Takes in a note: it lasts its written length within the tuplet, and nothing if that is not
positive. -/
def note (v : Voice τ) (p : Place τ) (n : Note τ) : Except Failure (Voice τ) := do
  let tuplet := n.tuplet.getD v.tuplet
  let duration := n.duration * Scalar.ofNat 4 * p.beat * tuplet
  let onset := v.cursor
  let v := { v with tuplet := if n.endsTuplet then Scalar.ofNat 1 else tuplet }
  if duration ≤ Scalar.zero then return v
  let v := { v with cursor := onset + duration, hasContent := true }
  if n.isRest then return { v with events := v.events ++ [p.event onset duration none] }
  n.pitches.foldlM (fun v x => do return v.pitch p onset duration (← x)) v

/-! ## Bar lines -/

/-- The slack in telling an upbeat from a full bar. -/
def slack : τ :=
  Scalar.ofNat 1

/-- A length is that of an upbeat: it is positive and shorter than a bar. -/
def isUpbeat (barLength written : τ) : Bool :=
  Scalar.isPositive written && decide (written < barLength - slack)

/-- Marks a bar. -/
def mark (v : Voice τ) (bar : Int) (m : RepeatMark) : Voice τ :=
  { v with markers := v.markers.add bar m }

/-- Closes the bar that is being read; the first one may turn out to be an upbeat. -/
def closeBar (v : Voice τ) (barLength : τ) : Voice τ :=
  let written := v.cursor - v.barStart
  { v with
    pickup := if v.bars = 0 ∧ isUpbeat barLength written then written else v.pickup
    bars := v.bars + 1
    barStart := v.cursor
    hasContent := false }

/-- Takes in a bar line. A bar closes only if something stands in it; at a bar line behind another
one, a closing repeat belongs to the bar before, if there is one. -/
def barLine (v : Voice τ) (barLength : τ) (b : BarLine) : Voice τ :=
  let closed :=
    if v.hasContent then (if b.closes then v.mark v.bars .closes else v).closeBar barLength
    else if b.closes ∧ 0 < v.bars then v.mark (v.bars - 1) .closes
    else v
  if b.opens then closed.mark closed.bars .opens else closed

end Voice

end PatternScore.Abc
