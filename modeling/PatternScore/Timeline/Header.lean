import PatternScore.Number.Scalar
import PatternScore.Key.Basic

/-!
# Headers: tempo, meter, key and title

The header of a piece fixes the grid of its bars: the meter gives the bar's length in quarter notes
and the tempo the length of a quarter note. A meter or tempo that gives no length is refused when
the length is asked for, not when the header is read.
-/

namespace PatternScore

/-- What a document says about the whole piece. -/
structure Header (τ : Type) where
  /-- Quarter notes per minute. -/
  tempo : τ
  /-- The upper number of the meter. -/
  numerator : Int := 4
  /-- The lower number of the meter. -/
  denominator : Int := 4
  /-- The key. -/
  key : Key := {}
  /-- The title, which may have several lines. -/
  title : String := ""

namespace Header

variable {τ : Type} [Scalar τ]

/-- The tempo of a piece that names none. -/
def defaultTempo : τ :=
  Scalar.nearest 120

/-- The header of a piece that says nothing but its title. -/
def plain (title : String) : Header τ :=
  { tempo := defaultTempo, title }

/-- The length of a bar in quarter notes. -/
def beatsPerBar (h : Header τ) : Except Failure τ :=
  if h.numerator ≤ 0 ∨ h.denominator ≤ 0 then
    .error (.degenerateMeter h.numerator h.denominator)
  else do
    let unit : τ ← Scalar.ratio 4 h.denominator
    let count : τ ← Scalar.ofInt h.numerator
    return count * unit

/-- The length of a quarter note in milliseconds. -/
def msPerBeat (h : Header τ) : Except Failure τ :=
  if h.tempo ≤ Scalar.zero then .error (.tempoNotPositive (Scalar.text h.tempo))
  else Scalar.div (Scalar.nearest 60000) h.tempo

/-- The length of a bar in milliseconds. -/
def barLength (h : Header τ) : Except Failure τ := do
  let beats ← h.beatsPerBar
  let beat ← h.msPerBeat
  return beats * beat

/-- The tempo of a program: bars per minute, a half going to the even neighbour. -/
def cyclesPerMinute (h : Header τ) : Except Failure Int := do
  let beats ← h.beatsPerBar
  let cycles ← Scalar.div h.tempo beats
  Scalar.roundEven cycles

end Header

end PatternScore
