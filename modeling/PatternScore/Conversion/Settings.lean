import PatternScore.Bar.Layout
import PatternScore.Json.Access
import PatternScore.Json.Display
import PatternScore.Sound

/-!
# Settings of a conversion

The settings say how finely time is measured, which of a source's policies to override, and how the
program is written. They are read from the mapping of a settings file, which has two sections; what
it does not know is left out with a warning, and a value outside its range is refused. Anything may
be written in the place of a value; it is a failure only for a conversion that needs the value.
-/

namespace PatternScore

/-- How a source's events are to be treated. -/
structure Policy where
  /-- Silence between events becomes a rest. -/
  fillGaps : Bool := true
  /-- The way of telling which notes form a chord. -/
  chordMode : ChordMode := .timing
  /-- The way of measuring durations. -/
  quantizeMode : QuantizeMode := .minimal
  deriving DecidableEq, Repr

/-- A setting: a value of its type, or else the kind of what is written in its place. -/
inductive Setting (α : Type) where
  /-- The value. -/
  | value (a : α)
  /-- Something else of the given kind. -/
  | misfit (kind : String)
  deriving DecidableEq, Repr

/-- The value of a setting. Something else in its place is refused if the value is needed; if not,
any value will do. -/
def Setting.getIf {α : Type} (needed : Bool) (unneeded : α) (refusal : String → Failure) :
    Setting α → Except Failure α
  | value a => .ok a
  | misfit kind => if needed then .error (refusal kind) else .ok unneeded

/-- The settings of a conversion. -/
structure Settings (τ : Type) where
  /-- Rests shorter than this are left out. -/
  restEpsilon : Setting τ
  /-- The slack in comparisons with bar lines. -/
  tolerance : Setting τ
  /-- The error that is accepted in units. -/
  quantizeTolerance : Setting τ
  /-- The finest split of the shortest duration. -/
  maxSubdivision : Int := 8
  /-- The greatest multiplier of beats. -/
  maxMultiplier : Setting Int := .value 64
  /-- Overrides the source's policy on gaps. -/
  fillGaps : Option Bool := none
  /-- Overrides the source's way of telling chords. -/
  chordMode : Option ChordMode := none
  /-- Overrides the source's way of measuring durations. -/
  quantizeMode : Option QuantizeMode := none
  /-- The program plays sections where all voices have the same. -/
  detectSections : Bool := true
  /-- Silent bars at the start and the end are left out. -/
  trimSilentBars : Bool := true
  /-- Pitches are counted in semitones rather than degrees. -/
  chromatic : Bool := false
  /-- The tracks of a recording are split into a high and a low voice. -/
  splitHands : Bool := true
  /-- The lowest note of the high voice, if there is to be one. -/
  splitPitch : Setting (Option Int) := .value (some 60)
  /-- The sound of every voice. -/
  instrument : Setting (Option String) := .value none
  /-- What the names of bar arrays begin with. -/
  arrayPrefix : String := "part"
  /-- The settings that are written somewhere, by name. -/
  written : List (String × Json) := []

namespace Settings

variable {τ : Type} [Scalar τ]

/-- The settings of a conversion that names none. -/
def standard : Settings τ :=
  { restEpsilon := .value (Scalar.nearest 10)
    tolerance := .value (Scalar.nearest 1)
    quantizeTolerance := .value (Scalar.nearest (1 / 100)) }

/-- A policy with what the settings override. -/
def override (c : Settings τ) (p : Policy) : Policy :=
  { fillGaps := c.fillGaps.getD p.fillGaps
    chordMode := c.chordMode.getD p.chordMode
    quantizeMode := c.quantizeMode.getD p.quantizeMode }

/-- The note at which the tracks of a recording are split. -/
def split (c : Settings τ) : Setting (Option Int) :=
  if c.splitHands then c.splitPitch else .value none

/-! ## Reading settings -/

/-- The names of all settings. -/
def names : List String := [
  "rest_epsilon_ms", "tolerance_ms", "quantize_tolerance", "max_subdivision", "max_multiplier",
  "fill_gaps", "chord_mode", "quantize_mode", "detect_sections", "trim_silent_bars", "chromatic",
  "split_hands", "split_pitch", "instrument", "array_prefix"]

/-- The number that is written, a truth value counting as one or zero. -/
def numeral? : Json → Option Numeral
  | .number n => some n
  | .bool b => some (.integer (if b then 1 else 0))
  | _ => none

/-- A setting that is a measured quantity. -/
def quantity (j : Json) : Setting τ :=
  match (numeral? j).map Scalar.ofNumeral with
  | some (.ok x) => .value x
  | _ => .misfit j.kind

/-- What is wrong with something in the place of a quantity; an integer there is too large. -/
def refused (refusal : String → Failure) (kind : String) : Failure :=
  if kind = "int" then .integerTooLarge else refusal kind

/-- What is finite of a numeral, rounded by a rule. -/
def rounded? (rule : Rat → Int) : Numeral → Option Int
  | .integer n => some n
  | n =>
    match (do Scalar.rounded rule (← Scalar.ofNumeral n : Float) : Except Failure Int) with
    | .ok n => some n
    | .error _ => none

/-- The greatest split that a limit allows; without an end to it, the finest of all. -/
def subdivisionLimit (j : Json) : Int :=
  ((numeral? j).bind (rounded? Rat.floor)).getD 8

/-- A setting that is an integer. -/
def integer (j : Json) : Setting Int :=
  match numeral? j with
  | some (.integer n) => .value n
  | _ => .misfit j.kind

/-- The lowest note of the high voice. It may be left open, and one beyond all notes splits nothing,
which is the same. -/
def lowestNote (j : Json) : Setting (Option Int) :=
  match j, numeral? j with
  | .null, _ => .value none
  | _, some n => .value (rounded? Rat.ceil n)
  | j, none => .misfit j.kind

/-- A setting that may be left open. -/
def open? {α : Type} (read : Json → Except Failure α) : Json → Except Failure (Option α)
  | .null => .ok none
  | j => some <$> read j

/-- A way of telling chords. -/
def readChordMode (j : Json) : Except Failure ChordMode :=
  match ChordMode.ofName? j.text with
  | some mode => .ok mode
  | none => .error (.chordModeSetting j.shown)

/-- A way of measuring durations. -/
def readQuantizeMode (j : Json) : Except Failure QuantizeMode :=
  match QuantizeMode.ofName? j.text with
  | some mode => .ok mode
  | none => .error (.quantizeModeSetting j.shown)

/-- The name of a sound. What is not present is none, whatever it is. -/
def readSound (j : Json) : Except Failure (Setting (Option String)) := do
  match ← j.asEntry with
  | .string s => return .value (some s)
  | j => return if j.isPresent then .misfit j.kind else .value none

/-- One setting by its name. -/
def set (c : Settings τ) (name : String) (j : Json) : Except Failure (Settings τ) :=
  match name with
  | "rest_epsilon_ms" => .ok { c with restEpsilon := quantity j }
  | "tolerance_ms" => .ok { c with tolerance := quantity j }
  | "quantize_tolerance" => .ok { c with quantizeTolerance := quantity j }
  | "max_subdivision" => .ok { c with maxSubdivision := subdivisionLimit j }
  | "max_multiplier" => .ok { c with maxMultiplier := integer j }
  | "fill_gaps" => do return { c with fillGaps := ← open? (.ok ·.isPresent) j }
  | "chord_mode" => do return { c with chordMode := ← open? readChordMode j }
  | "quantize_mode" => do return { c with quantizeMode := ← open? readQuantizeMode j }
  | "detect_sections" => .ok { c with detectSections := j.isPresent }
  | "trim_silent_bars" => .ok { c with trimSilentBars := j.isPresent }
  | "chromatic" => .ok { c with chromatic := j.isPresent }
  | "split_hands" => .ok { c with splitHands := j.isPresent }
  | "split_pitch" => .ok { c with splitPitch := lowestNote j }
  | "instrument" => do return { c with instrument := ← readSound j }
  | "array_prefix" => .ok { c with arrayPrefix := j.text }
  | _ => .ok c

/-- The settings that are looked at first, since they are refused first. -/
def firstChecked : List String := ["chord_mode", "quantize_mode"]

/-- A setting of the search for units is below one. -/
def isBelowOne (j : Json) : Except Failure Bool :=
  match numeral? j with
  | some (.integer n) => .ok (n < 1)
  | some n => do return decide ((← (Scalar.ofNumeral n : Except Failure Float)) < Scalar.ofNat 1)
  | none => .error (.notOrdered "<" j.kind "int")

/-- Whether some limit among the values is below one; the first that is ends the search. -/
def hasLimitBelowOne (values : List (String × Json)) : Except Failure Bool :=
  ["max_subdivision", "max_multiplier"].anyM fun name =>
    match values.lookup name with
    | some j => isBelowOne j
    | none => .ok false

/-- The settings that values by name give. -/
def ofMembers (values : List (String × Json)) : Except Failure (Settings τ) := do
  let (checked, others) := values.partition (firstChecked.contains ·.1)
  let ordered := firstChecked.filterMap fun name => (checked.lookup name).map (name, ·)
  let c ← ordered.foldlM (fun c (name, j) => c.set name j) standard
  if ← hasLimitBelowOne values then .error .limitsTooSmall
  else others.foldlM (fun c (name, j) => c.set name j) { c with written := values }

/-- The warning about a sound that the pattern language does not know. -/
def soundWarnings (sound : Json) : List String :=
  let isKnown :=
    match sound with
    | .null => true
    | .string name => Sound.isKnown name
    | _ => false
  if isKnown then [] else ["Unknown instrument " ++ sound.shown ++ "; it will be used as given"]

/-- The members of a section of a settings file, the section's name before each. -/
def sectionMembers (mapping : Json) (name : String) :
    Except Failure (List (String × String × Json)) := do
  match mapping with
  | .object _ =>
    let body := mapping.get name
    if !body.isPresent then return []
    match body with
    | .object members => return members.map (name, ·)
    | _ => .error (.notAnObject body.kind "items")
  | _ => .error (.notAnObject mapping.kind "get")

/-- The settings of a mapping with sections, and warnings about what is left out or unknown. -/
def ofMapping (mapping : Json) : Except Failure (Settings τ × List String) := do
  if !mapping.isPresent then return (standard, [])
  let members := (← sectionMembers mapping "conversion") ++ (← sectionMembers mapping "output")
  let (known, unknown) := members.partition fun (_, name, _) => names.contains name
  let values := known.foldl (fun values (_, name, j) => Json.setMember values name j) []
  let c ← ofMembers values
  let ignored := unknown.map fun (part, name, _) =>
    "Ignoring unknown setting " ++ part ++ "." ++ name
  return (c, ignored ++ soundWarnings ((values.lookup "instrument").getD .null))

end Settings

end PatternScore
