import PatternScore.Bar.Slot
import PatternScore.Timeline.Header

/-!
# Cutting a voice into bars

The events of a voice are placed one after another on a grid of bars of equal length. A note that
crosses a bar line is cut there, and every piece carries its pitch. `Scanner` is the state of the
work: the bars that are closed and the fragments of the open one. A bar closes as soon as something
begins at or after its end, less the tolerance; it never opens again.

Silence is filled with rests (`Grid.fillGaps`) where a source tells only what sounds. Where rests
are written, only those are kept.
-/

namespace PatternScore

variable {τ : Type} [Scalar τ]

/-- How a voice is cut into bars. -/
structure Grid (τ : Type) where
  /-- The length of every bar in milliseconds. -/
  length : τ
  /-- The slack in comparisons with bar lines and between events. -/
  tolerance : τ
  /-- Silence between events becomes a rest. -/
  fillGaps : Bool := true
  /-- The length of an upbeat before the first full bar. -/
  pickup : τ
  /-- Repeat marks by bar number. -/
  markers : Markers := []
  /-- The number of the voice. -/
  voice : Int := 0

/-- The bars of a voice while they are being cut. -/
structure Scanner (τ : Type) where
  /-- The number of the open bar. -/
  number : Nat := 0
  /-- The fragments of the open bar, the last one first. -/
  current : List (Fragment τ) := []
  /-- The closed bars, the last one first. -/
  closed : List (Slot τ) := []

namespace Scanner

/-- The time at which the open bar begins. -/
def start (g : Grid τ) (s : Scanner τ) : τ :=
  Scalar.ofNat s.number * g.length

/-- The time at which the open bar ends. -/
def stop (g : Grid τ) (s : Scanner τ) : τ :=
  Scalar.ofNat (s.number + 1) * g.length

/-- A rest of a whole bar. -/
def wholeRest (g : Grid τ) : Fragment τ :=
  { offset := Scalar.zero, duration := g.length }

/-- Closes the open bar, which gets a rest of its whole length if nothing was placed in it. -/
def close (g : Grid τ) (s : Scanner τ) : Scanner τ :=
  let fragments := if s.current.isEmpty then [wholeRest g] else s.current.reverse
  { number := s.number + 1
    current := []
    closed := { index := s.number, voice := g.voice, fragments, unit := Scalar.zero } :: s.closed }

/-- A number of bars that holds every bar beginning at or before `time`, the tolerance included. It
bounds how often a bar can close before one that lasts beyond `time` is open. -/
def barsUpTo (g : Grid τ) (time : τ) : Nat :=
  match Scalar.value time, Scalar.value g.tolerance, Scalar.value g.length with
  | .finite t, .finite slack, .finite length => ((t + slack) / length).floor.toNat + 2
  | _, _, _ => 1

/-- Closes bars until the open one lasts beyond `time`, but at most `bars` of them. -/
def advance (g : Grid τ) (time : τ) : Nat → Scanner τ → Scanner τ
  | 0, s => s
  | bars + 1, s =>
    if s.stop g - g.tolerance ≤ time then advance g time bars (s.close g) else s

/-- The time at which a piece that ends at `stop` is cut: the end of the open bar if the piece
reaches beyond it. -/
def cut (g : Grid τ) (s : Scanner τ) (stop : τ) : τ :=
  if s.stop g + g.tolerance < stop then s.stop g else Scalar.min stop (s.stop g)

/-- Places what lies in the open bar of a piece from `start` to `stop`. -/
def put (g : Grid τ) (s : Scanner τ) (start stop : τ) (pitch : Option Int)
    (chord : Option ChordMark) : Scanner τ :=
  let start := Scalar.max start (s.start g)
  let stop := s.cut g stop
  if start < stop then
    let fragment : Fragment τ :=
      { offset := start - s.start g, duration := stop - start, pitch, chord }
    { s with current := fragment :: s.current }
  else s

/-- Places a piece from `start` to `stop`, cut at every bar line, over at most `bars` bars. -/
def placeFrom (g : Grid τ) (stop : τ) (pitch : Option Int) (chord : Option ChordMark) :
    Nat → τ → Scanner τ → Scanner τ
  | 0, _, s => s
  | bars + 1, start, s =>
    if Scalar.zero < stop - start then
      let s := s.advance g start (barsUpTo g start)
      let placed := s.put g start stop pitch chord
      if stop ≤ s.cut g stop ∨ stop ≤ s.stop g + g.tolerance then placed
      else placeFrom g stop pitch chord bars (s.stop g) placed
    else s

/-- Places a note or rest, cut at every bar line it crosses. -/
def place (g : Grid τ) (s : Scanner τ) (onset duration : τ) (pitch : Option Int)
    (chord : Option ChordMark) : Scanner τ :=
  let stop := onset + duration
  placeFrom g stop pitch chord (barsUpTo g stop) onset s

/-- The greatest end of some fragments. -/
def covered (first : Fragment τ) (rest : List (Fragment τ)) : τ :=
  rest.foldl (fun time f => Scalar.max time f.stop) first.stop

/-- All bars. The open one is filled up with a rest and closed, unless nothing is in it. -/
def finish (g : Grid τ) (s : Scanner τ) : List (Slot τ) :=
  match s.current.reverse with
  | [] => s.closed.reverse
  | first :: rest =>
    let covered := covered first rest
    let missing := g.length - covered
    let s :=
      if g.tolerance < missing then
        { s with current := { offset := covered, duration := missing } :: s.current }
      else s
    (s.close g).closed.reverse

end Scanner

namespace Slot

/-- Makes an upbeat of a bar that begins in time but is not full: its content moves to the end,
behind a rest. -/
def padPickup (g : Grid τ) (s : Slot τ) : Slot τ :=
  match s.fragments with
  | [] => s
  | first :: rest =>
    let offset := rest.foldl (fun time f => Scalar.min time f.offset) first.offset
    let missing := g.length - Scanner.covered first rest
    if g.tolerance < offset ∨ missing ≤ g.tolerance then s
    else
      let moved := s.fragments.map fun f => { f with offset := f.offset + missing }
      { s with
        fragments := { offset := Scalar.zero, duration := missing } :: moved
        pickup := true }

end Slot

namespace Grid

/-- The time by which all events move when the upbeat is shorter than a bar: the part of the first
bar before it. -/
def shift? (g : Grid τ) : Option τ :=
  if g.tolerance < g.pickup ∧ g.pickup < g.length - g.tolerance then some (g.length - g.pickup)
  else none

/-- Places an event and the silence before it. Next to the scanner stands the time up to which
everything is placed. -/
def placeEvent (g : Grid τ) (shift : τ) (state : Scanner τ × τ) (e : Event τ) : Scanner τ × τ :=
  let (s, expected) := state
  let onset := e.onset + shift
  let s :=
    if g.fillGaps && decide (expected + g.tolerance < onset) then
      s.place g expected (onset - expected) none none
    else s
  (s.place g onset e.duration e.pitch e.chord, Scalar.max expected (onset + e.duration))

/-- Every slot with the mark of its bar. -/
def mark (g : Grid τ) (slots : List (Slot τ)) : List (Slot τ) :=
  slots.map fun s => { s with mark := g.markers.at? s.index }

/-- The first slot turned into an upbeat, if there is one. -/
def markPickup (g : Grid τ) : List (Slot τ) → List (Slot τ)
  | [] => []
  | first :: rest =>
    if g.shift?.isSome then { first with pickup := true } :: rest
    else if g.fillGaps then first :: rest
    else first.padPickup g :: rest

/-- The bars of a voice whose events are in the order of their onsets. -/
def cut (g : Grid τ) (events : List (Event τ)) : List (Slot τ) :=
  let shift := g.shift?.getD Scalar.zero
  let start : Scanner τ :=
    match g.shift? with
    | some shift => Scanner.place g {} Scalar.zero shift none none
    | none => {}
  let (s, _) := events.foldl (g.placeEvent shift) (start, shift)
  g.mark (g.markPickup (s.finish g))

/-- The bars of a voice, unless the grid is no grid. -/
def segment (g : Grid τ) (events : List (Event τ)) : Except Failure (List (Slot τ)) :=
  if g.length ≤ Scalar.zero then .error (.barLengthNotPositive (Scalar.text g.length))
  else if g.tolerance < Scalar.zero then .error (.toleranceNegative (Scalar.text g.tolerance))
  else .ok (g.cut events)

end Grid

end PatternScore
