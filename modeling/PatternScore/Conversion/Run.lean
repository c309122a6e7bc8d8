import PatternScore.Conversion.Bars
import PatternScore.Pattern.Arrangement
import PatternScore.Pattern.Printer

/-!
# Conversions

A conversion takes a document through all stages to the text of a program. It always gives a text:
input that cannot be used gives an error comment in place of a program, a voice whose bar grid
cannot be built is left out and reported, and doubtful bars are warned about.
-/

namespace PatternScore

variable {τ : Type} [Scalar τ]

/-- Everything that a source takes from one document. -/
structure Document (τ : Type) where
  /-- What the document says about the whole piece. -/
  header : Header τ
  /-- The events of each voice. -/
  voices : List (List (Event τ)) := []
  /-- The names of the voices. -/
  names : List String := []
  /-- The sounds of the voices, if they are named. -/
  instruments : List (Option String) := []
  /-- The repeat marks of the voices. -/
  markers : List Markers := []
  /-- The length of an upbeat before the first full bar. -/
  pickup : τ
  /-- The number of the tune, which names the bar arrays. -/
  tuneNumber : Option Int := none
  /-- What the source could not use. -/
  warnings : List String := []

namespace Document

/-- The name of a voice, or its number if it has none. -/
def voiceName (d : Document τ) (voice : Nat) : String :=
  match d.names[voice]? with
  | some name => if name.isEmpty then "Voice " ++ Text.nat (voice + 1) else name
  | none => "Voice " ++ Text.nat (voice + 1)

/-- The sound of a voice, if the document names one. -/
def voiceSound (d : Document τ) (voice : Nat) : Option String :=
  d.instruments.getD voice none

/-- The repeat marks of a voice. -/
def voiceMarkers (d : Document τ) (voice : Nat) : Markers :=
  d.markers.getD voice []

end Document

/-- The result of a conversion. -/
structure Conversion where
  /-- The text of the program, or an error comment. -/
  text : String
  /-- Doubtful bars. -/
  warnings : List String := []
  /-- What dropped a voice or the whole conversion. -/
  errors : List String := []
  deriving DecidableEq, Repr

namespace Conversion

/-- Every voice was converted. -/
def ok (c : Conversion) : Bool :=
  c.errors.isEmpty

/-- The conversion that a failure ends. Input that cannot be used is reported in its own words; any
other failure without words is reported by its kind. -/
def failed (warnings errors : List String) (f : Failure) : Conversion :=
  { text := errorText (if f.kind = .source then f.message else f.summary)
    warnings
    errors := errors ++ [f.message] }

/-- The conversion of a document of which no voice is left. -/
def silent (errors : List String) : Conversion :=
  let message := errors.headD "No notes found"
  { text := errorText message, errors := if errors.isEmpty then [message] else errors }

/-! ## Voices -/

/-- The voices of a document as far as they could be built. -/
structure Built (τ : Type) where
  /-- The number and the bars of each voice that has bars. -/
  voices : List (Nat × List (Slot τ)) := []
  /-- The voices that were left out. -/
  errors : List String := []
  /-- What ended the work. -/
  failure : Option Failure := none

/-- The plan for one voice of a document. -/
def planOf (policy : Policy) (c : Settings τ) (d : Document τ) (voice : Nat) : VoicePlan τ :=
  { policy := c.override policy
    settings := c
    header := d.header
    voice
    markers := d.voiceMarkers voice
    pickup := d.pickup }

/-- Builds the voices of a document from the number `voice` on. -/
def buildFrom (policy : Policy) (c : Settings τ) (d : Document τ) :
    Nat → List (List (Event τ)) → Built τ
  | _, [] => {}
  | voice, events :: rest =>
    match (planOf policy c d voice).build events with
    | .ok [] => buildFrom policy c d (voice + 1) rest
    | .ok slots =>
      let built := buildFrom policy c d (voice + 1) rest
      { built with voices := (voice, slots) :: built.voices }
    | .error f =>
      if f.kind = .configuration then
        let built := buildFrom policy c d (voice + 1) rest
        { built with errors := (d.voiceName voice ++ ": " ++ f.message) :: built.errors }
      else { failure := some f }

/-- Builds the voices of a document. -/
def build (policy : Policy) (c : Settings τ) (d : Document τ) : Built τ :=
  buildFrom policy c d 0 d.voices

/-! ## Programs -/

/-- The names of the bar arrays of `count` voices. -/
def arrayNames (count : Nat) (start : String) (tuneNumber : Option Int) : List String :=
  match tuneNumber with
  | some n =>
    if count = 1 then ["t" ++ Text.int n]
    else (List.range count).map fun i => "t" ++ Text.int n ++ "_v" ++ Text.nat i
  | none => (List.range count).map fun i => start ++ Text.nat i

/-- The sound of a voice: the one that is set, the document's, or the default; an empty one counts
as none. -/
def soundOf (c : Settings τ) (d : Document τ) (voice : Nat) : String :=
  let named (sound : Option String) : Option String := sound.filter (!·.isEmpty)
  let setSound : Option String :=
    match c.instrument with
    | .value sound => sound
    | .misfit _ => none
  ((named setSound).or (named (d.voiceSound voice))).getD Sound.default

/-- A voice as a part of a composition. -/
def partOf (c : Settings τ) (d : Document τ) (array : String) (voice : Nat × List (Slot τ)) :
    Part :=
  { array
    name := d.voiceName voice.1
    catalog := Catalog.ofBars (voice.2.map (·.tokens))
    sound := soundOf c d voice.1 }

/-- The sections of the voices, if all agree. -/
def sectionsOf (c : Settings τ) (voices : List (Nat × List (Slot τ))) : List Section :=
  if c.detectSections then
    (Section.shared (voices.map fun v => v.2.map (·.mark))).getD []
  else []

/-- The text of a program that plays some voices. The sound comes last in it, so that something else
in the place of its name is refused last. -/
def program (c : Settings τ) (d : Document τ) (voices : List (Nat × List (Slot τ)))
    (errors : List String) : Except Failure String := do
  let arrays := arrayNames voices.length c.arrayPrefix d.tuneNumber
  let cycles ← d.header.cyclesPerMinute
  let composition ← Composition.arrange (arrays.zipWith (partOf c d) voices) d.header.key.scaleName
    d.header.title cycles (sectionsOf c voices)
  let text ← { composition with comments := errors.map ("Error: " ++ ·) }.write
  let _ ← c.instrument.getIf true none (.notAnObject · "replace")
  return text

/-- The voices without silent bars at their ends, if the settings say so. -/
def trimmed (c : Settings τ) (voices : List (Nat × List (Slot τ))) :
    List (Nat × List (Slot τ)) :=
  if c.trimSilentBars then (voices.map (·.1)).zip (Slot.trimSilent (voices.map (·.2))) else voices

/-- The warnings about the bars of all voices. -/
def checked (d : Document τ) (voices : List (Nat × List (Slot τ))) :
    Except Failure (List String) := do
  return (← voices.mapM fun (voice, slots) => Slot.checkAll (d.voiceName voice) slots).flatten

/-- Converts a document. -/
def ofDocument (policy : Policy) (c : Settings τ) (d : Document τ) : Conversion :=
  let built := build policy c d
  match built.failure with
  | some f => failed [] built.errors f
  | none =>
    if built.voices.isEmpty then silent built.errors
    else
      let voices := trimmed c built.voices
      match checked d voices with
      | .error f => failed [] built.errors f
      | .ok warnings =>
        match program c d voices built.errors with
        | .error f => failed warnings built.errors f
        | .ok text => { text, warnings, errors := built.errors }

/-- Converts what a source made of its input. -/
def run (policy : Policy) (c : Settings τ) : Except Failure (Document τ) → Conversion
  | .ok d => ofDocument policy c d
  | .error f => failed [] [] f

end Conversion

end PatternScore
