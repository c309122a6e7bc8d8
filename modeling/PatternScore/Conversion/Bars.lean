import PatternScore.Bar.Segmentation
import PatternScore.Conversion.Settings
import PatternScore.Notation.Reader

/-!
# From events to checked bars

`Voice.build` takes the events of one voice through all stages up to tokens. The bars are then
checked: a bar whose written form does not read back as the bar is reported, and a bar whose content
is not as long as a bar, unless it is an upbeat. Silent bars at the ends of a piece can be left out.
-/

namespace PatternScore

variable {τ : Type} [Scalar τ]

/-- What the bars of a voice are built from, besides its events. -/
structure VoicePlan (τ : Type) where
  /-- How events are treated. -/
  policy : Policy
  /-- The settings of the conversion. -/
  settings : Settings τ
  /-- The header of the piece. -/
  header : Header τ
  /-- The number of the voice. -/
  voice : Int := 0
  /-- The repeat marks of the voice. -/
  markers : Markers := []
  /-- The length of an upbeat. -/
  pickup : τ

namespace VoicePlan

/-- Rests shorter than this are left out. The setting is needed only if there are rests. -/
def restEpsilon (p : VoicePlan τ) (events : List (Event τ)) : Except Failure τ :=
  p.settings.restEpsilon.getIf (events.any Event.isTimedRest) Scalar.zero
    (Settings.refused (.notOrdered "<" "float" ·))

/-- The slack in comparisons with bar lines. It is needed only for bars that have a length. -/
def tolerance (p : VoicePlan τ) (length : τ) : Except Failure τ :=
  p.settings.tolerance.getIf (!decide (length ≤ Scalar.zero)) Scalar.zero
    (Settings.refused (.notOrdered "<" · "int"))

/-- The grid of bars of a given length. -/
def grid (p : VoicePlan τ) (length tolerance : τ) : Grid τ :=
  { length
    tolerance
    fillGaps := p.policy.fillGaps
    pickup := p.pickup
    markers := p.markers
    voice := p.voice }

/-- The limits of the search for the unit of a bar. The fixed way needs all of them, the minimal
way none of beats, and a tolerance only if something takes time. -/
def search (p : VoicePlan τ) (s : Slot τ) : Except Failure (UnitSearch τ) := do
  let isFixed := p.policy.quantizeMode == .fixed
  let isTimed := s.fragments.any fun f => decide (Units.epsilon < f.duration)
  let maxMultiplier ← p.settings.maxMultiplier.getIf isFixed 1 .notWhole
  let tolerance ← p.settings.quantizeTolerance.getIf (isFixed || isTimed) Scalar.zero
    (Settings.refused fun kind =>
      if isFixed then .notOrdered "<=" "float" kind else .notAFactor kind)
  return { tolerance, maxSubdivision := p.settings.maxSubdivision, maxMultiplier }

/-- How a bar of a given length is measured. -/
def measure (p : VoicePlan τ) (length : τ) (search : UnitSearch τ) : Slot.Measure τ :=
  { length
    mode := p.policy.quantizeMode
    beats := p.header.numerator
    search }

/-- A negative tolerance is shown as it was written, if it was written as an integer. -/
def asWritten (p : VoicePlan τ) : Failure → Failure
  | .toleranceNegative text =>
    match p.settings.written.lookup "tolerance_ms" with
    | some (.number (.integer n)) => .toleranceNegative (Text.int n)
    | _ => .toleranceNegative text
  | f => f

/-- Measures a bar and turns it into tokens. -/
def tokenize (p : VoicePlan τ) (length : τ) (s : Slot τ) : Except Failure (Slot τ) := do
  let s ← (s.quantize (p.measure length (← p.search s))).mapError (·.failure)
  (s.group p.policy.chordMode).mapError (·.failure)

/-- The bars of a voice. -/
def build (p : VoicePlan τ) (events : List (Event τ)) : Except Failure (List (Slot τ)) := do
  let length ← p.header.barLength
  let events := Event.audible (← p.restEpsilon events) events
  let grid := p.grid length (← p.tolerance length)
  let slots ← (grid.segment events).mapError p.asWritten
  slots.mapM (p.tokenize length)

end VoicePlan

/-! ## Checks -/

namespace Slot

/-- The place of a bar in warnings, counted from one. -/
def place (name : String) (s : Slot τ) : String :=
  name ++ ", bar " ++ Text.int (s.index + 1) ++ ": "

/-- The warning about a bar that does not read back. -/
def unreadable (name : String) (s : Slot τ) : String :=
  s.place name ++ Text.quoted s.tokens.text ++ " does not read back as written"

/-- The warning about a bar of the wrong length. -/
def wrongLength (name : String) (s : Slot τ) : String :=
  s.place name ++ Text.int s.units ++ " units, expected " ++ Text.int s.target

/-- The warnings about a bar. -/
def check (name : String) (s : Slot τ) : Except Failure (List String) := do
  let reading := if ← s.tokens.readsBack then [] else [s.unreadable name]
  let length := if s.pickup || s.units == s.target then [] else [s.wrongLength name]
  return reading ++ length

/-- The warnings about the bars of a voice. -/
def checkAll (name : String) (slots : List (Slot τ)) : Except Failure (List String) := do
  return (← slots.mapM (check name)).flatten

/-! ## Silent bars -/

/-- A voice without the silent bars at its end; its first bar stays. -/
def trimEnd : List (Slot τ) → List (Slot τ)
  | [] => []
  | first :: rest => first :: (rest.reverse.dropWhile isSilent).reverse

/-- How many silent bars a voice begins with, its last bar not counted. -/
def leadingSilence (slots : List (Slot τ)) : Nat :=
  min (slots.takeWhile isSilent).length (slots.length - 1)

/-- How many silent bars all voices begin with. -/
def sharedSilence : List (List (Slot τ)) → Nat
  | [] => 0
  | first :: rest => rest.foldl (fun n slots => min n (leadingSilence slots)) (leadingSilence first)

/-- A voice without its first bars; the numbers of the others move down. -/
def dropBars (count : Nat) (slots : List (Slot τ)) : List (Slot τ) :=
  (slots.drop count).map fun s => { s with index := s.index - count }

/-- The voices without the silent bars at their ends and without those that all begin with. -/
def trimSilent (voices : List (List (Slot τ))) : List (List (Slot τ)) :=
  let voices := voices.map trimEnd
  voices.map (dropBars (sharedSilence voices))

end Slot

end PatternScore
