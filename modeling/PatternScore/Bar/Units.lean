import PatternScore.Bar.Slot

/-!
# Durations as small integers

The durations of one bar become whole numbers of a common unit, as small as they can be. Two ways
of finding the unit are known. The *minimal* way starts from the shortest duration, splits it where
dotted notes or tuplets need it, and rounds the rest; it does not depend on the tempo and suits
uneven timing. The *fixed* way counts in beats of the meter and looks for the least multiplier that
makes every count whole; it suits exact timing. Either way the units of a bar end up coprime.
-/

namespace PatternScore

/-- The two ways of measuring the durations of a bar. -/
inductive QuantizeMode where
  | minimal | fixed
  deriving DecidableEq, Repr

namespace QuantizeMode

/-- The mode's name. -/
def name : QuantizeMode → String
  | minimal => "minimal" | fixed => "fixed"

/-- The mode of a name. -/
def ofName? : String → Option QuantizeMode
  | "minimal" => some minimal
  | "fixed" => some fixed
  | _ => none

end QuantizeMode

/-- The limits of the search for a unit. -/
structure UnitSearch (τ : Type) where
  /-- The error that is accepted, relative to a duration or absolute in beats. -/
  tolerance : τ
  /-- The finest split of the shortest duration. -/
  maxSubdivision : Int := 8
  /-- The greatest multiplier of beats. -/
  maxMultiplier : Int := 64

namespace Units

/-! ## Common divisors -/

/-- The greatest common divisor of several integers; a single one is its own. -/
def commonDivisor : List Int → Int
  | [] => 0
  | n :: rest => rest.foldl (fun d m => Int.gcd d m) n

/-- The units divided by their greatest common divisor. -/
def reduce (units : List Int) : List Int :=
  let divisor := commonDivisor units
  if divisor ≤ 1 then units else units.map (· / divisor)

variable {τ : Type} [Scalar τ]

/-! ## The minimal way -/

/-- Durations up to this one count as none. -/
def epsilon : τ :=
  Scalar.nearest (1 / 1000000000)

/-- The splits that are tried: binary, dotted and tuplet rhythms. -/
def subdivisions : List Int := [1, 2, 3, 4, 6, 8]

/-- The duration is nearly a whole number of the minimum's parts. The error is measured relative to
the duration, so that finer splits get no extra slack. -/
def fits (tolerance minimum : τ) (subdivision : Int) (duration : τ) : Except Failure Bool := do
  let relative ← Scalar.div duration minimum
  let count ← Scalar.roundHalfUp (relative * Scalar.nearest subdivision)
  let nearest : τ ← Scalar.ratio count subdivision
  return !decide (tolerance * relative < Scalar.abs (relative - nearest))

/-- The first of the splits up to the limit that all durations fit, or no split. -/
def subdivisionFrom (search : UnitSearch τ) (minimum : τ) (durations : List τ) :
    List Int → Except Failure Int
  | [] => .ok 1
  | subdivision :: finer => do
    if search.maxSubdivision < subdivision then return 1
    if ← durations.allM (fits search.tolerance minimum subdivision) then return subdivision
    subdivisionFrom search minimum durations finer

/-- The number of quanta of a duration, at least one. -/
def countOf (quantum duration : τ) : Except Failure Int :=
  if epsilon < duration then do
    let quotient ← Scalar.div duration quantum
    let count ← Scalar.roundHalfUp quotient
    return if 1 < count then count else 1
  else .ok 1

/-- The least of some numbers. -/
def least (first : τ) (rest : List τ) : τ :=
  rest.foldl Scalar.min first

/-- The durations as the smallest whole numbers in the same proportions, and the length of one
unit, which is zero when nothing takes time. -/
def ofDurations (search : UnitSearch τ) (durations : List τ) : Except Failure (List Int × τ) :=
  match durations.filter fun d => decide (epsilon < d) with
  | [] => .ok (durations.map fun _ => 1, Scalar.zero)
  | first :: rest => do
    let minimum := least first rest
    let subdivision ← subdivisionFrom search minimum (first :: rest) subdivisions
    let quantum ← Scalar.div minimum (Scalar.nearest subdivision)
    let counts ← durations.mapM (countOf quantum)
    let divisor := commonDivisor counts
    return (counts.map (· / divisor), quantum * Scalar.nearest divisor)

/-! ## The fixed way -/

/-- The number is nearly whole after multiplication. -/
def isNearlyWhole (tolerance : τ) (multiplier : Int) (x : τ) : Except Failure Bool := do
  let product := x * Scalar.nearest multiplier
  let whole ← Scalar.roundHalfUp product
  let whole : τ ← Scalar.ofInt whole
  return decide (Scalar.abs (product - whole) ≤ tolerance)

/-- The first of `tries` multipliers, counted up from `multiplier`, that makes all numbers nearly
whole. -/
def multiplierFrom (tolerance : τ) (values : List τ) : Nat → Int → Except Failure (Option Int)
  | 0, _ => .ok none
  | tries + 1, multiplier => do
    if ← values.allM (isNearlyWhole tolerance multiplier) then return some multiplier
    multiplierFrom tolerance values tries (multiplier + 1)

/-- The least multiplier that makes all numbers nearly whole, or the greatest that is allowed. -/
def fixedMultiplier (search : UnitSearch τ) (values : List τ) : Except Failure Int := do
  let found ← multiplierFrom search.tolerance values search.maxMultiplier.toNat 1
  return found.getD search.maxMultiplier

/-- The number of units of a duration that lasts `beats`, at least one. -/
def countOfBeats (multiplier : Int) (beats : τ) : Except Failure Int := do
  let count ← Scalar.roundHalfUp (beats * Scalar.nearest multiplier)
  return if 1 < count then count else 1

/-- The durations of a bar of `beats` beats as whole numbers, and the length of one unit. Offsets
take part in the search for the multiplier. -/
def ofBeats (search : UnitSearch τ) (length : τ) (beats : Int) (durations offsets : List τ) :
    Except Failure (List Int × τ) := do
  let beat ← Scalar.div length (← Scalar.ofInt beats)
  let durations ← durations.mapM (Scalar.div · beat)
  let offsets ← offsets.mapM (Scalar.div · beat)
  let multiplier ← fixedMultiplier search (durations ++ offsets)
  let counts ← durations.mapM (countOfBeats multiplier)
  let divisor := commonDivisor counts
  let part ← Scalar.div beat (Scalar.nearest multiplier)
  return (counts.map (· / divisor), part * Scalar.nearest divisor)

end Units

namespace Slot

variable {τ : Type} [Scalar τ]

/-- How the bars of a voice are measured. -/
structure Measure (τ : Type) where
  /-- The length of a bar in milliseconds. -/
  length : τ
  /-- The way of measuring. -/
  mode : QuantizeMode := .minimal
  /-- The beats of a bar. -/
  beats : Int := 4
  /-- The limits of the search for a unit. -/
  search : UnitSearch τ

/-- The units of the fragments and the length of one unit; the whole bar if that is no length. -/
def findUnits (m : Measure τ) (fragments : List (Fragment τ)) : Except Failure (List Int × τ) := do
  let durations := fragments.map (·.duration)
  let (units, unit) ←
    match m.mode with
    | .minimal => Units.ofDurations m.search durations
    | .fixed => Units.ofBeats m.search m.length m.beats durations (fragments.map (·.offset))
  return (units, if unit ≤ Scalar.zero then m.length else unit)

/-- Gives the fragments their units one after another, up to the first whose offset cannot be
counted. -/
def assignUnits (unit : τ) :
    List (Fragment τ) → List Int → List (Fragment τ) × Except Failure Unit
  | f :: fragments, units :: more =>
    let offset := do
      let quotient ← Scalar.div f.offset unit
      Scalar.roundHalfUp quotient
    match offset with
    | .error failure => ({ f with units } :: fragments, .error failure)
    | .ok offsetUnits =>
      let (done, result) := assignUnits unit fragments more
      ({ f with units, offsetUnits } :: done, result)
  | fragments, _ => (fragments, .ok ())

/-- Measures a bar: gives every fragment its units, and the bar its unit and its full length in
units. A bar without fragments stays as it is. -/
def quantize (m : Measure τ) (s : Slot τ) : Except (Stopped τ) (Slot τ) := do
  if s.fragments.isEmpty then return s
  let (units, unit) ← (findUnits m s.fragments).mapError (⟨·, s⟩)
  let (fragments, result) := assignUnits unit s.fragments units
  let s := { s with fragments }
  result.mapError (⟨·, s⟩)
  let s := { s with unit }
  let target ← (do Scalar.roundHalfUp (← Scalar.div m.length unit)).mapError (⟨·, s⟩)
  return { s with target }

/-- Measures a bar in a way given by name. The name only matters if there is something to
measure. -/
def quantizeNamed (m : Measure τ) (mode : String) (s : Slot τ) : Except (Stopped τ) (Slot τ) :=
  if s.fragments.isEmpty then .ok s
  else
    match QuantizeMode.ofName? mode with
    | some mode => s.quantize { m with mode }
    | none => .error ⟨.unknownQuantizeMode mode, s⟩

end Slot

end PatternScore
