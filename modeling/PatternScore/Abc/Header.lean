import PatternScore.Number.Numeral

/-!
# Header fields of ABC text

A field is a letter at the start of a line, a colon, and a value. Blanks before the value are
skipped, over line ends too, so that an empty field takes the next line that is not empty for its
value. The value ends with its line; blanks at its end do not belong to it.
-/

namespace PatternScore.Abc

open Text

/-- The characters behind the next line feed. -/
def nextLine (cs : List Char) : List Char :=
  (cs.dropWhile (· != '\n')).drop 1

/-- Dropping from the front leaves no more than there was. -/
theorem length_dropWhile_le (p : Char → Bool) (cs : List Char) :
    (cs.dropWhile p).length ≤ cs.length :=
  (List.dropWhile_suffix p).length_le

/-- Behind a line feed there is less left than before it. -/
theorem length_nextLine_lt (c : Char) (cs : List Char) :
    (nextLine (c :: cs)).length < (c :: cs).length := by
  have h := length_dropWhile_le (· != '\n') (c :: cs)
  simp only [nextLine, List.length_drop, List.length_cons] at h ⊢
  omega

/-- A Latin letter without diacritics. -/
def isLetter (c : Char) : Bool :=
  ('A' ≤ c && c ≤ 'Z') || ('a' ≤ c && c ≤ 'z')

/-- The value that begins behind the blanks. -/
def fieldValue (cs : List Char) : String :=
  String.ofList (trimRight ((cs.dropWhile isBlank).takeWhile (· != '\n')))

/-- The fields of a text that begins at the start of a line, in order. -/
def fieldsFrom : List Char → List (Char × String)
  | [] => []
  | c :: ':' :: cs =>
    if isLetter c then (c.toUpper, fieldValue cs) :: fieldsFrom (nextLine (cs.dropWhile isBlank))
    else fieldsFrom (nextLine (c :: ':' :: cs))
  | c :: cs => fieldsFrom (nextLine (c :: cs))
termination_by cs => cs.length
decreasing_by
  · have h := length_dropWhile_le isBlank cs
    cases h' : cs.dropWhile isBlank with
    | nil => simp [nextLine]
    | cons d ds =>
      have := length_nextLine_lt d ds
      rw [h'] at h
      simp only [List.length_cons] at *
      omega
  · exact length_nextLine_lt _ _
  · exact length_nextLine_lt _ _

/-- The fields of an ABC text by capital letter. -/
abbrev Header := List (Char × String)

/-- The first field of each letter. -/
def firstFields : List (Char × String) → Header → Header
  | [], fields => fields
  | (letter, value) :: rest, fields =>
    if (fields.lookup letter).isSome then firstFields rest fields
    else firstFields rest (fields ++ [(letter, value)])

/-- The header of an ABC text. -/
def readHeader (s : String) : Header :=
  firstFields (fieldsFrom s.toList) []

/-- The value of a field, if it has one that is not empty. -/
def Header.value? (h : Header) (letter : Char) : Option String :=
  (h.lookup letter).filter (!·.isEmpty)

/-! ## Meter and tempo fields -/

/-- A run of digits at the start, and what is behind it. -/
def digits? (cs : List Char) : Option (List Char × List Char) :=
  let run := cs.takeWhile isDecimalDigit
  if run.isEmpty then none else some (run, cs.dropWhile isDecimalDigit)

/-- What follows a sign that may stand between blanks. -/
def behind? (sign : Char) (cs : List Char) : Option (List Char) :=
  match cs.dropWhile isBlank with
  | c :: rest => if c == sign then some (rest.dropWhile isBlank) else none
  | [] => none

/-- The digits of two numbers with a slash between them at the start, and what is behind them. -/
def fraction? (cs : List Char) : Option ((List Char × List Char) × List Char) := do
  let (n, cs) ← digits? cs
  let (d, cs) ← digits? (← behind? '/' cs)
  return ((n, d), cs)

/-- The first place where a reader succeeds. -/
def search? {α : Type} (read : List Char → Option α) : List Char → Option α
  | [] => read []
  | c :: cs =>
    match read (c :: cs) with
    | some x => some x
    | none => search? read cs

/-- The meter that a field gives: a sign for common or cut time, or a fraction. -/
def meterOfField (s : String) : Except Failure (Option (Int × Int)) :=
  match trim s with
  | "C" => .ok (some (4, 4))
  | "C|" => .ok (some (2, 2))
  | _ =>
    match search? fraction? s.toList with
    | some ((n, d), _) => do return some (← Numeral.ofDigits n, ← Numeral.ofDigits d)
    | none => .ok none

/-- A beat and how many of them make a minute. -/
structure TempoField where
  /-- The upper number of the beat. -/
  numerator : Nat
  /-- The lower number of the beat. -/
  denominator : Nat
  /-- The digits of the count of beats. -/
  digits : Nat
  /-- How many of the digits stand behind the point. -/
  places : Nat
  deriving DecidableEq, Repr

/-- The digits of a beat, and those before and behind the point of a decimal, with an equals sign
between them at the start. -/
def tempoAt? (cs : List Char) : Option ((List Char × List Char) × List Char × List Char) := do
  let (beat, cs) ← fraction? cs
  let (whole, cs) ← digits? (← behind? '=' cs)
  let fraction :=
    match cs with
    | '.' :: rest => rest.takeWhile isDecimalDigit
    | _ => []
  return (beat, whole, fraction)

/-- The tempo that a field gives. -/
def tempoOfField (s : String) : Except Failure (Option TempoField) :=
  match search? tempoAt? s.toList with
  | some ((n, d), whole, fraction) => do
    return some {
      numerator := ← Numeral.ofDigits n
      denominator := ← Numeral.ofDigits d
      digits := digitsValue 0 (whole ++ fraction)
      places := fraction.length }
  | none => .ok none

end PatternScore.Abc
