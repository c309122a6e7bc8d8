import PatternScore.Bar.Token
import PatternScore.Timeline.Event

/-!
# Bars of a voice

A `Slot` is the place of one bar in one voice. It is first filled with fragments, which are notes
and rests in milliseconds; then the fragments get units; then they become the bar's tokens. A step
that fails may have done part of its work: `Stopped` keeps the slot as far as it got.
-/

namespace PatternScore

/-- What a repeat sign says about a bar. -/
inductive RepeatMark where
  /-- A repeat opens at the bar's start. -/
  | opens
  /-- A repeat closes at the bar's end. -/
  | closes
  /-- The bar is a repeat on its own. -/
  | both
  /-- A sign that bounds no repeat. -/
  | other (tag : String)
  deriving DecidableEq, Repr

namespace RepeatMark

/-- The mark's name. -/
def tag : RepeatMark → String
  | opens => "repeat_start"
  | closes => "repeat_end"
  | both => "repeat_both"
  | other tag => tag

/-- The mark of a name. -/
def ofTag : String → RepeatMark
  | "repeat_start" => opens
  | "repeat_end" => closes
  | "repeat_both" => both
  | tag => other tag

/-- A repeat opens at the start of a bar with this mark. -/
def isOpening : RepeatMark → Bool
  | opens | both => true
  | _ => false

/-- A repeat closes at the end of a bar with this mark. -/
def isClosing : RepeatMark → Bool
  | closes | both => true
  | _ => false

end RepeatMark

/-- The marks of a voice by bar number, each number at most once. -/
abbrev Markers := List (Int × RepeatMark)

namespace Markers

/-- The marks with one more, which replaces an older mark of the same bar. -/
def set : Markers → Int → RepeatMark → Markers
  | [], index, mark => [(index, mark)]
  | (i, m) :: rest, index, mark =>
    if i = index then (i, mark) :: rest else (i, m) :: set rest index mark

/-- The mark of a bar. -/
def at? (markers : Markers) (index : Int) : Option RepeatMark :=
  markers.lookup index

/-- Another mark for a bar: two different marks make the bar a repeat on its own. -/
def add (markers : Markers) (index : Int) (mark : RepeatMark) : Markers :=
  match markers.at? index with
  | some old => markers.set index (if old = mark then mark else .both)
  | none => markers.set index mark

/-- The marks in the order of their bars. -/
def sorted (markers : Markers) : Markers :=
  markers.mergeSort fun x y => x.1 ≤ y.1

end Markers

/-- A note or a rest inside one bar. -/
structure Fragment (τ : Type) where
  /-- Start in milliseconds from the beginning of the bar. -/
  offset : τ
  /-- Length in milliseconds. -/
  duration : τ
  /-- Pitch; a rest has none. -/
  pitch : Option Int := none
  /-- What the source marks as one chord. -/
  chord : Option ChordMark := none
  /-- Length in units of the bar. -/
  units : Int := 0
  /-- Start in units of the bar. -/
  offsetUnits : Int := 0
  deriving DecidableEq

namespace Fragment

variable {τ : Type} [Scalar τ]

/-- The fragment is silence. -/
def isRest (f : Fragment τ) : Bool :=
  f.pitch.isNone

/-- The time in the bar at which the fragment stops. -/
def stop (f : Fragment τ) : τ :=
  f.offset + f.duration

end Fragment

/-- One bar of one voice. -/
structure Slot (τ : Type) where
  /-- The number of the bar within the voice. -/
  index : Int
  /-- The number of the voice. -/
  voice : Int := 0
  /-- The notes and rests of the bar in milliseconds. -/
  fragments : List (Fragment τ) := []
  /-- The content of the bar in units. -/
  tokens : Bar := []
  /-- What repeat signs say about the bar. -/
  mark : Option RepeatMark := none
  /-- The bar is an upbeat, filled up with a rest before it. -/
  pickup : Bool := false
  /-- The length of one unit in milliseconds. -/
  unit : τ
  /-- The length of a full bar in units. -/
  target : Int := 0
  deriving DecidableEq

namespace Slot

variable {τ : Type} [Scalar τ]

/-- The length of the bar's content in units. -/
def units (s : Slot τ) : Int :=
  s.tokens.units

/-- The bar holds no note. -/
def isSilent (s : Slot τ) : Bool :=
  if s.tokens.isEmpty then s.fragments.all (·.isRest) else s.tokens.all (·.isRest)

end Slot

/-- A failure in the middle of the work on a slot. -/
structure Stopped (τ : Type) where
  /-- Why the work stopped. -/
  failure : Failure
  /-- The slot as far as it was done. -/
  slot : Slot τ
  deriving DecidableEq

end PatternScore
