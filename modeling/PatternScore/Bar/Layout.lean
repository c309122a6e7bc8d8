import PatternScore.Bar.Units

/-!
# Laying a bar out as one line

The fragments of a measured bar may overlap. Fragments that belong together first become one
`Span`: notes of one written chord (`ChordMode.group`), or notes of equal start and length, and
rests of equal start and length. The spans are then laid out from left to right without overlaps:

* a note that begins inside another cuts it short, and notes that begin together sound together;
* a note that was cut short is held again once the one that cut it ends, as long as it reaches;
* a rest under a sounding note disappears, and rests that touch become one.

The line's units are reduced once more, and the bar's unit and full length follow.
-/

namespace PatternScore

/-- The two ways of telling which notes form a chord. -/
inductive ChordMode where
  /-- Notes with the same mark of the source. -/
  | group
  /-- Notes of equal start and length. -/
  | timing
  deriving DecidableEq, Repr

namespace ChordMode

/-- The mode's name. -/
def name : ChordMode → String
  | group => "group" | timing => "timing"

/-- The mode of a name. -/
def ofName? : String → Option ChordMode
  | "group" => some group
  | "timing" => some timing
  | _ => none

/-- The mode of a name, unless there is none. -/
def ofName (name : String) : Except Failure ChordMode :=
  match ofName? name with
  | some mode => .ok mode
  | none => .error (.unknownChordMode name)

end ChordMode

/-- Notes that sound together, or a rest, on the way to becoming a token. -/
structure Span where
  /-- Start in units of the bar. -/
  start : Int
  /-- Length in units. -/
  units : Int
  /-- The pitches, ascending and each once. -/
  pitches : List Int := []
  /-- The span is silence. -/
  isRest : Bool := false
  /-- Where the notes end as they were written. -/
  reach : Int := 0
  deriving DecidableEq, Repr

namespace Span

/-- The end of the span. -/
def stop (s : Span) : Int :=
  s.start + s.units

/-! ## Collecting fragments -/

/-- A pitch added to pitches in ascending order. -/
def insertPitch (p : Int) : List Int → List Int
  | [] => [p]
  | q :: rest =>
    if p < q then p :: q :: rest else if p = q then q :: rest else q :: insertPitch p rest

/-- What tells which fragments become one span. -/
inductive Key where
  | rest (start units : Int)
  | chord (mark : ChordMark)
  | timing (start units : Int)
  deriving DecidableEq, Repr

variable {τ : Type}

/-- The key of a fragment. -/
def Key.ofFragment (mode : ChordMode) (f : Fragment τ) : Key :=
  match f.pitch, mode, f.chord with
  | none, _, _ => .rest f.offsetUnits f.units
  | some _, .group, some mark => .chord mark
  | some _, _, _ => .timing f.offsetUnits f.units

/-- The pitches of a span together with a fragment's. -/
def addPitch (pitches : List Int) (f : Fragment τ) : List Int :=
  match f.pitch with
  | some p => insertPitch p pitches
  | none => pitches

/-- The span of a single fragment. -/
def ofFragment (f : Fragment τ) : Span :=
  { start := f.offsetUnits, units := f.units, pitches := addPitch [] f, isRest := f.pitch.isNone }

/-- The span from the earlier start to the later end of a span and a fragment. -/
def extend (s : Span) (f : Fragment τ) : Span :=
  let start := min s.start f.offsetUnits
  let stop := max s.stop (f.offsetUnits + f.units)
  { s with start, units := stop - start, pitches := addPitch s.pitches f }

/-- The spans by key, with one more fragment. -/
def absorb (mode : ChordMode) (f : Fragment τ) : List (Key × Span) → List (Key × Span)
  | [] => [(.ofFragment mode f, ofFragment f)]
  | (key, s) :: rest =>
    if key = .ofFragment mode f then (key, s.extend f) :: rest
    else (key, s) :: absorb mode f rest

/-- The order in which spans are laid out: by start, notes before rests, by length, by pitches. -/
def precedes (s t : Span) : Bool :=
  if s.start ≠ t.start then decide (s.start < t.start)
  else if s.isRest ≠ t.isRest then t.isRest
  else if s.units ≠ t.units then decide (s.units < t.units)
  else !t.pitches.lex s.pitches

/-- The spans of a bar's fragments in the order in which they are laid out. -/
def collect (mode : ChordMode) (fragments : List (Fragment τ)) : List Span :=
  let spans := fragments.foldl (fun spans f => absorb mode f spans) []
  (spans.map fun (_, s) => { s with reach := s.stop }).mergeSort precedes

/-! ## Laying out -/

/-- Adds a span behind a line, of which the last span is given first. Touching rests become one. -/
def append (s : Span) : List Span → List Span
  | last :: before =>
    if s.isRest && last.isRest && last.stop == s.start then
      { last with units := last.units + s.units } :: before
    else s :: last :: before
  | [] => [s]

/-- Lays a span over the end of a line, of which the last span is given first. -/
def lay (s : Span) : List Span → List Span
  | [] => [s]
  | last :: before =>
    if last.stop ≤ s.start then append s (last :: before)
    else if s.isRest then
      if s.stop ≤ last.stop then last :: before
      else append { s with start := last.stop, units := s.stop - last.stop } (last :: before)
    else if s.start ≤ last.start then
      if last.isRest then lay s before
      else
        { last with
          pitches := s.pitches.foldl (fun pitches p => insertPitch p pitches) last.pitches
          units := max last.units s.units
          reach := max last.reach s.reach } :: before
    else append s ({ last with units := s.start - last.start } :: before)

/-- A span stretched to a later end. -/
def stretch (s : Span) (stop : Int) : Span :=
  if s.stop < stop then { s with units := stop - s.start } else s

/-- Holds notes through the gaps of a line. The spans that are done are given last first, and
`sounding` is where the notes among them end as they were written. -/
def hold : List Span → Int → List Span → List Span
  | done, sounding, [] =>
    match done with
    | last :: before => if last.isRest then done else last.stretch sounding :: before
    | [] => []
  | done, sounding, s :: more =>
    let sounding' := if s.isRest then sounding else max sounding s.reach
    match done with
    | [] => hold [s] sounding' more
    | last :: before =>
      if last.isRest then hold (s :: last :: before) sounding' more
      else
        let last := last.stretch (min (if s.isRest then s.stop else s.start) sounding)
        if s.isRest && decide (s.start < last.stop) then
          if s.stop ≤ last.stop then hold (last :: before) sounding more
          else
            let s := { s with start := last.stop, units := s.stop - last.stop }
            hold (s :: last :: before) sounding' more
        else hold (s :: last :: before) sounding' more

/-- The spans as one line without overlaps. -/
def layOut (spans : List Span) : List Span :=
  let line := spans.foldl (fun line s => lay s line) []
  (hold [] 0 line.reverse).reverse

/-- The token of a span that lasts `units`. -/
def token (s : Span) (units : Int) : Token :=
  if s.isRest then .rest units else .note s.pitches units

end Span

namespace Slot

variable {τ : Type} [Scalar τ]

/-- Turns the fragments of a measured bar into its tokens. -/
def group (mode : ChordMode) (s : Slot τ) : Except (Stopped τ) (Slot τ) :=
  let line := (Span.layOut (Span.collect mode s.fragments)).filter (0 < ·.units)
  let lengths := line.map (·.units)
  let divisor := Units.commonDivisor lengths
  let tokens := line.zipWith Span.token (Units.reduce lengths)
  if line.isEmpty || divisor ≤ 1 then .ok { s with tokens }
  else do
    let factor : τ ← (Scalar.ofInt divisor).mapError (⟨·, s⟩)
    let s := { s with unit := s.unit * factor }
    let target ← (do
      let quotient : τ ← Scalar.ratio s.target divisor
      Scalar.roundHalfUp quotient).mapError (⟨·, s⟩)
    return { s with target, tokens }

/-- Turns the fragments of a measured bar into its tokens, in a mode given by name. -/
def groupNamed (mode : String) (s : Slot τ) : Except (Stopped τ) (Slot τ) := do
  let mode ← (ChordMode.ofName mode).mapError (⟨·, s⟩)
  s.group mode

end Slot

end PatternScore
