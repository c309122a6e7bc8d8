import PatternScore.Abc.Tune
import PatternScore.Json.Access
import PatternScore.Json.Display
import PatternScore.Json.Number

/-!
# Tunes given as JSON

A parser of ABC writes a tune as nested objects. What is missing, null or empty takes its default;
what has another shape than its place asks for is a failure in that place.
-/

namespace PatternScore.Abc

variable {τ : Type} [Scalar τ]

/-! ## Elements -/

/-- A measured quantity, or its default where none is given. -/
def quantity (j : Json) (default : τ) : Except Failure τ :=
  (j.present?.map Json.toScalar).getD (.ok default)

/-- A pitch. Ties are marked by members that may be empty, so that only their presence counts. -/
def Pitch.ofJson (j : Json) : Except Failure Pitch := do
  return {
    step := ← (← j.member "pitch").toInteger
    endsTie := (j.get? "endTie").isSome
    startsTie := (j.get? "startTie").isSome }

/-- A note. -/
def Note.ofJson (j : Json) : Except Failure (Note τ) := do
  let tuplet : Option τ ←
    if (j.get "startTriplet").isPresent then
      some <$> quantity (j.get "tripletMultiplier") (Scalar.ofNat 1)
    else .ok none
  return {
    tuplet
    duration := ← quantity (j.get "duration") Scalar.zero
    endsTuplet := (j.get "endTriplet").isPresent
    isRest := (j.get "rest").isPresent
    pitches := (j.get "pitches").listing Pitch.ofJson }

/-- The repeat signs that a kind of bar line has. -/
def BarLine.ofKind : String → BarLine
  | "bar_left_repeat" => { opens := true }
  | "bar_right_repeat" | "bar_dbl_repeat" => { closes := true }
  | _ => {}

/-- A bar line; a kind that is no text is one without repeat signs. -/
def BarLine.ofJson (j : Json) : Except Failure BarLine := do
  match ← (j.get "type").asEntry with
  | .string kind => return .ofKind kind
  | _ => return {}

/-- An element. -/
def Element.ofJson (j : Json) : Except Failure (Element τ) := do
  match ← j.part "el_type" with
  | .string "note" => return .note (← Note.ofJson j)
  | .string "bar" => return .barLine (← BarLine.ofJson j)
  | _ => return .other

/-! ## Staves -/

/-- The sign of an accidental by its name. -/
def accidentalSign (j : Json) : Except Failure String := do
  match ← j.asEntry with
  | .string "sharp" => return "#"
  | .string "flat" => return "b"
  | _ => return ""

/-- The text of a key: letter, accidental and mode. -/
def keyText (j : Json) : Except Failure (Option String) := do
  let root ← j.part "root"
  if !root.isPresent || root.text == "none" then return none
  let sign ← accidentalSign ((j.get "acc").present?.getD (.string ""))
  return some (root.text ++ sign ++ ((j.get "mode").present?.map Json.text).getD "")

/-- The sum of the integers between the plus signs of a text. -/
def sumOfText (s : String) : Except Failure Int := do
  let numbers ← (Text.splitOn '+' s).mapM fun n => (Json.string n).toInteger
  return numbers.foldl (· + ·) 0

/-- The two numbers of a meter, each read by a rule of its own. -/
def meterBy (upper : Json → Except Failure Int) (j : Json) : Except Failure (Int × Int) := do
  let n ← upper (← j.member "num")
  let d ← (← j.member "den").toInteger
  return (n, d)

/-- The meter that a value gives. If its numbers are no integers, the upper one may be a sum; if it
is none, the meter is unknown. -/
def meterOfValue (j : Json) : Meter :=
  match meterBy Json.toInteger j with
  | .ok m => .ok (some m)
  | .error f =>
    if f.kind = .overflow then .error f
    else
      match meterBy (fun n => sumOfText n.text) j with
      | .ok m => .ok (some m)
      | .error f => if f.kind = .lookup ∨ f.kind = .value then .ok none else .error f

/-- The meter of a staff: common time, cut time, or the first value. -/
def meterOfJson (j : Json) : Meter := do
  match ← j.part "type" with
  | .string "common_time" => return some (4, 4)
  | .string "cut_time" => return some (2, 2)
  | _ =>
    match (j.get "value").listing Except.ok with
    | [] => return none
    | value :: _ => meterOfValue (← value)

/-- The elements of each voice. -/
def voicesOfJson (j : Json) : Listing (Listing (Element τ)) :=
  j.listing fun elements => do return (← elements.items).map Element.ofJson

/-- A staff. -/
def Staff.ofJson (j : Json) : Staff τ :=
  { key := do keyText (← j.part "key").orEmpty
    meter := do meterOfJson (← j.part "meter").orEmpty
    voices :=
      match j.part "voices" with
      | .ok voices => voicesOfJson voices
      | .error f => [.error f] }

/-- The staves of a line. -/
def stavesOfJson (line : Json) : Except Failure (Listing (Staff τ)) := do
  return (← line.part "staff").listing fun staff => .ok (Staff.ofJson staff)

/-! ## Tunes -/

/-- A tempo, if a count of beats is given. -/
def Tempo.ofJson? (j : Json) : Except Failure (Option (Tempo τ)) := do
  let beats ← j.part "bpm"
  if !beats.isPresent then return none
  let lengths : List τ ←
    match (j.get "duration").present? with
    | some lengths => do (← lengths.items).mapM Json.toScalar
    | none => .ok [Scalar.nearest (1 / 4)]
  return some { beats := ← beats.toScalar, lengths }

/-- The name of a sound: a text, or the first of a list. -/
def soundOfJson : Json → Option String
  | .array names => (names.headD .null).present?.map Json.text
  | j => j.present?.map Json.text

/-- The header of the text that a tune was parsed from. -/
def headerOfJson (j : Json) : Except Failure Header :=
  match j.present? with
  | some (.string text) => .ok (readHeader text)
  | some j => .error (.notText j.kind)
  | none => .ok []

/-- A tune with the text that it was parsed from; only an object can be a tune. -/
def Tune.ofJson (j text : Json) : Except Failure (Tune τ) := do
  let lines ← j.part "lines"
  let about := (j.get "metaText").orEmpty
  return {
    lines := lines.listing stavesOfJson
    title := do return (← about.part "title").present?.map Json.text
    tempo := do Tempo.ofJson? (← about.part "tempo").orEmpty
    sound := (about.get "I").present?.map soundOfJson
    header := headerOfJson text }

end PatternScore.Abc
