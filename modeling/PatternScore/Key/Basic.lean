import PatternScore.Failure

/-!
# Keys

A key is a tonic and a mode. The tonic is spelled by a letter and an accidental, so each of the
twenty-one spellings is a key root and nothing else is. Texts become keys through `Key.ofNames`,
which names what it cannot read, and counts of sharps or flats through `Key.ofFifths`.
-/

namespace PatternScore

/-! ## Note names -/

/-- The seven letters of written notes, in the order of their steps above C. -/
inductive Letter where
  | c | d | e | f | g | a | b
  deriving DecidableEq, Repr

namespace Letter

/-- All letters, by step. -/
def all : List Letter := [c, d, e, f, g, a, b]

/-- The steps from C up to the letter. -/
def step : Letter → Int
  | c => 0 | d => 1 | e => 2 | f => 3 | g => 4 | a => 5 | b => 6

/-- The semitones from C up to the letter. -/
def semitones : Letter → Int
  | c => 0 | d => 2 | e => 4 | f => 5 | g => 7 | a => 9 | b => 11

/-- The letter as it is written. -/
def char : Letter → Char
  | c => 'C' | d => 'D' | e => 'E' | f => 'F' | g => 'G' | a => 'A' | b => 'B'

/-- The letter that a capital stands for. -/
def ofChar? (x : Char) : Option Letter :=
  all.find? (·.char == x)

/-- The letter that a text of one capital stands for. -/
def ofString? (s : String) : Option Letter :=
  match s.toList with
  | [x] => ofChar? x
  | _ => none

end Letter

/-- What alters a letter. -/
inductive Accidental where
  | flat | natural | sharp
  deriving DecidableEq, Repr

namespace Accidental

/-- The semitones by which the accidental raises a note. -/
def semitones : Accidental → Int
  | flat => -1 | natural => 0 | sharp => 1

/-- The accidental as it is written. -/
def chars : Accidental → List Char
  | flat => ['b'] | natural => [] | sharp => ['#']

/-- The accidental that a sign stands for. -/
def ofChar? : Char → Option Accidental
  | 'b' => some flat
  | '#' => some sharp
  | _ => none

end Accidental

/-- A letter with at most one accidental. -/
structure NoteName where
  /-- The letter. -/
  letter : Letter
  /-- What alters it. -/
  accidental : Accidental
  deriving DecidableEq, Repr

namespace NoteName

/-- The semitones above C, within one octave. -/
def pitchClass (n : NoteName) : Int :=
  (n.letter.semitones + n.accidental.semitones) % 12

/-- The name as it is written. -/
def text (n : NoteName) : String :=
  String.ofList (n.letter.char :: n.accidental.chars)

/-- The note name that a text spells. -/
def ofString? (s : String) : Option NoteName :=
  match s.toList with
  | [l] => (Letter.ofChar? l).map (⟨·, .natural⟩)
  | [l, a] => do return ⟨← Letter.ofChar? l, ← Accidental.ofChar? a⟩
  | _ => none

end NoteName

/-! ## Modes and keys -/

/-- The two modes of keys. -/
inductive Mode where
  | major | minor
  deriving DecidableEq, Repr

namespace Mode

/-- The semitones from the tonic up to each of the seven steps. -/
def intervals : Mode → List Int
  | major => [0, 2, 4, 5, 7, 9, 11]
  | minor => [0, 2, 3, 5, 7, 8, 10]

/-- The mode as it is written. -/
def text : Mode → String
  | major => "major" | minor => "minor"

/-- The mode that a text names. -/
def ofString? : String → Option Mode
  | "major" => some major
  | "minor" => some minor
  | _ => none

end Mode

/-- A tonic and a mode. -/
structure Key where
  /-- The tonic. -/
  root : NoteName := ⟨.c, .natural⟩
  /-- The mode. -/
  mode : Mode := .major
  deriving DecidableEq, Repr

namespace Key

/-- The semitones from C up to the tonic. -/
def tonicPitchClass (k : Key) : Int :=
  k.root.pitchClass

/-- The name of the key's scale, as programs write it. -/
def scaleName (k : Key) : String :=
  k.root.text ++ ":" ++ k.mode.text

/-- The key of a tonic and a mode given by name. -/
def ofNames (root mode : String) : Except Failure Key := do
  let some name := NoteName.ofString? root | .error (.unknownRoot root)
  let some mode := Mode.ofString? mode | .error (.unknownMode mode)
  return ⟨name, mode⟩

/-! ## Key signatures -/

/-- The letters in the order of the circle of fifths. -/
def circle : List Letter := [.f, .c, .g, .d, .a, .e, .b]

/-- The note name a number of fifths above F. Seven fifths further up stands the same letter,
raised; seven fifths down it stands lowered. -/
def onCircle (position : Int) : NoteName :=
  { letter := circle.getD (position % 7).toNat .f
    accidental := if position < 0 then .flat else if 7 ≤ position then .sharp else .natural }

/-- The key of a signature of `fifths` sharps, or of flats when `fifths` is negative. -/
def ofFifths (fifths : Int) (mode : Mode) : Except Failure Key :=
  if -7 ≤ fifths ∧ fifths ≤ 7 then
    .ok ⟨onCircle (fifths + match mode with | .major => 1 | .minor => 4), mode⟩
  else .error (.signatureOutOfRange fifths)

end Key

end PatternScore
