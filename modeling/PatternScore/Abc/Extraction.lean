import PatternScore.Abc.Voice
import PatternScore.Conversion.Run
import PatternScore.Key.Reader

/-!
# Documents from ABC tunes

`Tune.extract` takes the header and the voices from a parsed tune. What the tune does not say is
looked up in the header of its text. A voice is a place in a line, a staff and a voice of it; the
voices are numbered in the order in which they first appear, and the notes in the order in which
they are written, over all voices.
-/

namespace PatternScore.Abc

variable {τ : Type} [Scalar τ]

/-- Written durations tell what sounds and what does not; chords are written as such. -/
def policy : Policy :=
  { fillGaps := true, chordMode := .group, quantizeMode := .minimal }

/-! ## The header -/

/-- A tempo in quarter notes per minute. -/
def Tempo.quarters (t : Tempo τ) : τ :=
  t.beats * t.lengths.foldl (· + ·) Scalar.zero * Scalar.ofNat 4

/-- A tempo field in quarter notes per minute. -/
def TempoField.quarters (t : TempoField) : Except Failure τ := do
  let beat : τ ← Scalar.ratio t.numerator t.denominator
  return Scalar.ofDecimal false t.digits (-t.places) * beat * Scalar.ofNat 4

namespace Tune

/-- A key that cannot be read makes the tune unusable. -/
def readKey (s : String) : Except Failure Key :=
  (Key.read s).mapError fun f => .source (.unreadableKey f.message)

/-- The key: the first staff's, the header's, or C major. -/
def keyOf (fields : Header) (staff : Staff τ) : Except Failure Key := do
  match (← staff.key).or (fields.value? 'K') with
  | some s => readKey s
  | none => return {}

/-- The meter: the first staff's, the header's, or none. -/
def meterOf (fields : Header) (staff : Staff τ) : Meter := do
  match ← staff.meter, fields.value? 'M' with
  | none, some field => meterOfField field
  | meter, _ => return meter

/-- The tempo: the one that the tune counts, the header's, or the default. -/
def tempoOf (fields : Header) (tempo : Option (Tempo τ)) : Except Failure τ :=
  match tempo with
  | some tempo => .ok tempo.quarters
  | none => do
    match ← tempoOfField ((fields.lookup 'Q').getD "") with
    | some field => field.quarters
    | none => return Header.defaultTempo

/-- What the tune and the fields of its text say about the whole piece. -/
def headerOf (t : Tune τ) (fields : Header) : Except Failure (PatternScore.Header τ) := do
  let staff ← t.firstStaff
  let title := ((← t.title).or (fields.value? 'T')).getD "Untitled"
  let key ← keyOf fields staff
  let (numerator, denominator) := (← meterOf fields staff).getD (4, 4)
  return { tempo := ← tempoOf fields (← t.tempo), numerator, denominator, key, title }

/-- The name of the sound that the tune asks for. -/
def soundName (t : Tune τ) (fields : Header) : Option String :=
  (t.sound.getD (fields.value? 'I')).map fun s => Text.lower (Text.trim s)

/-- The warning about a sound that the pattern language does not know. -/
def soundWarnings : Option String → List String
  | some name =>
    if Sound.isKnown name then []
    else ["Unknown instrument " ++ Text.quoted name ++ " in ABC tune; using the default"]
  | none => []

/-- The number of a tune, if its field holds figures only. -/
def numberOf (fields : Header) : Except Failure (Option Int) :=
  let s := Text.trim ((fields.lookup 'X').getD "")
  if s.isEmpty ∨ ¬ s.toList.all Text.isFigure then .ok none
  else some <$> Numeral.readInteger s

/-! ## The voices -/

/-- What a tune is read with. -/
structure Setting (τ : Type) where
  /-- The length of a quarter note. -/
  beat : τ
  /-- The length of a bar. -/
  barLength : τ
  /-- The step of the tonic. -/
  tonic : Int

/-- The voices while they are being read, by staff and voice in the order of their appearance, and
how many notes are read. -/
structure Scan (τ : Type) where
  /-- The voices. -/
  voices : List ((Nat × Nat) × Voice τ) := []
  /-- The count of notes. -/
  notes : Nat := 0

/-- One element of a voice that has the number `number`. -/
def element (s : Setting τ) (number : Nat) :
    Voice τ × Nat → Element τ → Except Failure (Voice τ × Nat)
  | (v, notes), .note n => do
    let place : Voice.Place τ := ⟨s.beat, s.tonic, number, notes + 1⟩
    return (← v.note place n, notes + 1)
  | (v, notes), .barLine b => .ok (v.barLine s.barLength b, notes)
  | (v, notes), .other => .ok (v, notes)

/-- The voices with one more at their end, unless it is there. -/
def Scan.withVoice (scan : Scan τ) (place : Nat × Nat) : Scan τ :=
  if (scan.voices.lookup place).isSome then scan
  else { scan with voices := scan.voices ++ [(place, Voice.start)] }

/-- One strand. -/
def strand (s : Setting τ) (scan : Scan τ) (x : Strand τ) : Except Failure (Scan τ) := do
  let place := (x.staff, x.voice)
  let scan := scan.withVoice place
  let number := scan.voices.findIdx (·.1 == place)
  let before := (scan.voices.lookup place).getD Voice.start
  let (after, notes) ←
    x.elements.foldlM (fun read e => do element s number read (← e)) (before, scan.notes)
  return { voices := scan.voices.modify number fun (p, _) => (p, after), notes }

/-- The voices of a tune. -/
def readVoices (s : Setting τ) (t : Tune τ) : Except Failure (List (Voice τ)) := do
  let scan ← t.strands.foldlM (fun scan x => do strand s scan (← x)) {}
  return scan.voices.map (·.2)

/-! ## The document -/

/-- Takes the header and the voices from a tune. -/
def extract (t : Tune τ) : Except Failure (Document τ) := do
  if !(← t.hasMusic) then .error (.source .noMusicLines)
  let fields ← t.header
  let header ← t.headerOf fields
  let barLength ← header.barLength
  let beat ← header.msPerBeat
  let voices ← t.readVoices { beat, barLength, tonic := header.key.root.letter.step }
  let sound := t.soundName fields
  return {
    header
    voices := voices.map (·.events)
    names := (List.range voices.length).map fun i => "Voice " ++ Text.nat (i + 1)
    instruments := voices.map fun _ => sound.filter Sound.isKnown
    markers := voices.map (·.markers)
    pickup := (voices.head?.map (·.pickup)).getD Scalar.zero
    tuneNumber := ← numberOf fields
    warnings := soundWarnings sound }

end Tune

end PatternScore.Abc
