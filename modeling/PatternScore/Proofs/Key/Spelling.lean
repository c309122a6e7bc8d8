import Mathlib.Tactic.IntervalCases
import PatternScore.Key.Degree

/-!
# Written and sounding degrees

A written note has the degree of its letter, a sounding one that of its number. Both count from the
tonic in the octave of middle C, but one from the letter of the tonic and the other from its pitch
class. An accidental may carry the tonic over the edge of the octave in which its letter stands
(`NoteName.octaves`): B sharp sounds in the octave above, C flat in the one below.

A step of the scale is written with a letter, and altered so that it sounds where the mode has it
(`Key.letterOfStep`, `Key.alteration`). In every key the sounding degree of a step is the written
one and seven more for every octave over which the tonic is carried (`degreeOfNote_noteOfStep`). Of
the keys that have a signature, this concerns C flat major alone
(`degreeOfLetter_eq_degreeOfNote_iff`).
-/

namespace PatternScore

/-! ## Letters and tonics -/

namespace Letter

/-- The letter some steps above another. -/
def above (l : Letter) (steps : Fin 7) : Letter :=
  all.getD ((l.step.toNat + steps) % 7) .c

/-- Above the last letter the first one follows. -/
lemma step_above (l : Letter) (steps : Fin 7) : (l.above steps).step = (l.step + steps) % 7 := by
  revert steps
  cases l <;> decide

end Letter

/-- The octaves by which the accidental carries a note away from the octave of its letter. -/
def NoteName.octaves (n : NoteName) : Int :=
  (n.letter.semitones + n.accidental.semitones) / 12

namespace Key

/-! ## The steps of a scale -/

/-- The semitones from the tonic up to a step of the scale. -/
def interval (k : Key) (step : Fin 7) : Int :=
  k.mode.intervals.getD step 0

/-- The letter with which a step of the scale is written. -/
def letterOfStep (k : Key) (step : Fin 7) : Letter :=
  k.root.letter.above step

/-- The semitones by which this letter is altered to sound in the scale. -/
def alteration (k : Key) (step : Fin 7) : Int :=
  Int.bmod (k.tonicPitchClass + k.interval step - (k.letterOfStep step).semitones) 12

/-- The number of the note that is a step of the scale, its letter written in an octave. -/
def noteOfStep (k : Key) (step : Fin 7) (octave : Int) : Int :=
  12 * (octave + 1) + (k.letterOfStep step).semitones + k.alteration step

variable {k : Key} {fifths : Int} {mode : Mode}

/-- The note sounds in the pitch class that the mode has for the step. -/
lemma noteOfStep_emod (k : Key) (step : Fin 7) (octave : Int) :
    k.noteOfStep step octave % 12 = (k.tonicPitchClass + k.interval step) % 12 := by
  have halteration : k.alteration step % 12 =
      (k.tonicPitchClass + k.interval step - (k.letterOfStep step).semitones) % 12 :=
    Int.bmod_emod
  rw [noteOfStep]
  omega

/-- All steps of a mode lie within one octave, and as many of them lie up to a step as it has below
it, itself included. -/
lemma interval_spec (k : Key) (step : Fin 7) :
    (0 ≤ k.interval step ∧ k.interval step < 12) ∧
      k.mode.intervals.countP (· ≤ k.interval step) = step + 1 := by
  obtain ⟨root, mode⟩ := k
  change (0 ≤ mode.intervals.getD step 0 ∧ mode.intervals.getD step 0 < 12) ∧
    mode.intervals.countP (· ≤ mode.intervals.getD step 0) = step + 1
  revert step
  cases mode <;> decide

/-- A step sounds its interval above the tonic, wherever their letters stand. -/
lemma semitones_add_alteration (k : Key) (step : Fin 7) :
    (k.letterOfStep step).semitones + k.alteration step + 12 * ((k.root.letter.step + step) / 7) =
      k.root.letter.semitones + k.root.accidental.semitones + k.interval step := by
  obtain ⟨⟨letter, accidental⟩, mode⟩ := k
  revert step
  cases letter <;> cases accidental <;> cases mode <;> decide

/-! ## Degrees -/

/-- Some octaves and a step of the scale above the tonic. -/
lemma degreeOfNote_tonicNote_add (k : Key) (octaves : Int) (step : Fin 7) :
    k.degreeOfNote (k.tonicNote + 12 * octaves + k.interval step) = 7 * octaves + step := by
  obtain ⟨⟨hnonneg, hlt⟩, hcount⟩ := k.interval_spec step
  have hdistance : k.tonicNote + 12 * octaves + k.interval step - k.tonicNote =
      12 * octaves + k.interval step := by
    omega
  have hoctaves : (12 * octaves + k.interval step) / 12 = octaves := by omega
  have hwithin : (12 * octaves + k.interval step) % 12 = k.interval step := by omega
  simp only [degreeOfNote, hdistance, hoctaves, hwithin, hcount]
  push_cast
  omega

/-- In every key the sounding degree of a step is the written one, moved by the octaves over which
the accidental carries the tonic. -/
lemma degreeOfNote_noteOfStep (k : Key) (step : Fin 7) (octave : Int) :
    k.degreeOfNote (k.noteOfStep step octave) =
      k.degreeOfLetter (k.letterOfStep step) octave + 7 * k.root.octaves := by
  have hsounds := k.semitones_add_alteration step
  have htonic : k.tonicNote + 12 * k.root.octaves =
      12 * (referenceOctave + 1) + k.root.letter.semitones + k.root.accidental.semitones := by
    rw [tonicNote, tonicPitchClass, NoteName.pitchClass, NoteName.octaves]
    omega
  set crossed := (k.root.letter.step + step) / 7 with hcrossed
  have hnote : k.noteOfStep step octave =
      k.tonicNote + 12 * (octave - referenceOctave - crossed + k.root.octaves) +
        k.interval step := by
    rw [noteOfStep]
    omega
  have hletter : k.degreeOfLetter (k.letterOfStep step) octave =
      7 * (octave - referenceOctave - crossed) + step := by
    rw [degreeOfLetter, letterOfStep, Letter.step_above]
    omega
  rw [hnote, degreeOfNote_tonicNote_add, hletter]
  omega

/-! ## Keys of signatures -/

/-- Of the tonics that a signature may have only C flat is carried over an octave. -/
lemma octaves_onCircle {position : Int} (hlow : -6 ≤ position) (hhigh : position ≤ 11) :
    (onCircle position).octaves = if position = -6 then -1 else 0 := by
  interval_cases position <;> rfl

/-- What the key of a signature is. -/
lemma eq_of_ofFifths (h : ofFifths fifths mode = .ok k) :
    (-7 ≤ fifths ∧ fifths ≤ 7) ∧
      (mode = .major ∧ k = ⟨onCircle (fifths + 1), .major⟩ ∨
        mode = .minor ∧ k = ⟨onCircle (fifths + 4), .minor⟩) := by
  unfold ofFifths at h
  split at h
  · rename_i hrange
    obtain rfl := Except.ok.inj h
    cases mode with
    | major => exact ⟨hrange, .inl ⟨rfl, rfl⟩⟩
    | minor => exact ⟨hrange, .inr ⟨rfl, rfl⟩⟩
  · cases h

/-- The tonic of a signature stands in the octave of its letter, unless it is C flat. -/
lemma octaves_root (h : ofFifths fifths mode = .ok k) :
    k.root.octaves = if fifths = -7 ∧ mode = .major then -1 else 0 := by
  obtain ⟨⟨hlow, hhigh⟩, ⟨rfl, rfl⟩ | ⟨rfl, rfl⟩⟩ := eq_of_ofFifths h
  · rw [octaves_onCircle (by omega) (by omega)]
    refine if_congr ?_ rfl rfl
    rw [and_iff_left rfl]
    omega
  · rw [octaves_onCircle (by omega) (by omega), if_neg (by omega)]
    exact (if_neg fun hflat => nomatch hflat.2).symm

/-- Every letter of a signature's scale has one sharp or flat at most. -/
lemma abs_alteration_le_one (h : ofFifths fifths mode = .ok k) (step : Fin 7) :
    |k.alteration step| ≤ 1 := by
  obtain ⟨⟨hlow, hhigh⟩, ⟨rfl, rfl⟩ | ⟨rfl, rfl⟩⟩ := eq_of_ofFifths h
  · revert step
    interval_cases fifths <;> decide
  · revert step
    interval_cases fifths <;> decide

/-- In the scale of a signature every step is written with one sharp or flat at most, and it has the
same degree written and sounding unless the key is C flat major. There each note sounds seven
degrees below the one that is written. -/
theorem degreeOfLetter_eq_degreeOfNote_iff (h : ofFifths fifths mode = .ok k) (step : Fin 7)
    (octave : Int) :
    |k.alteration step| ≤ 1 ∧
      k.noteOfStep step octave % 12 = (k.tonicPitchClass + k.interval step) % 12 ∧
      (k.degreeOfLetter (k.letterOfStep step) octave =
        k.degreeOfNote (k.noteOfStep step octave) ↔ ¬ (fifths = -7 ∧ mode = .major)) ∧
      (fifths = -7 ∧ mode = .major →
        k.degreeOfNote (k.noteOfStep step octave) =
          k.degreeOfLetter (k.letterOfStep step) octave - 7) := by
  have hdegree := k.degreeOfNote_noteOfStep step octave
  rw [octaves_root h] at hdegree
  refine ⟨abs_alteration_le_one h step, k.noteOfStep_emod step octave, ?_, fun hflat => ?_⟩
  · rw [hdegree]
    split
    · rename_i hflat
      exact ⟨fun heq => by omega, fun hnot => absurd hflat hnot⟩
    · rename_i hnot
      exact ⟨fun _ => hnot, fun _ => by omega⟩
  · rw [hdegree, if_pos hflat]
    omega

/-- The seventh step of D major, written C in the octave of middle C, is C sharp, one degree below
the tonic. -/
theorem degreeOfLetter_eq_degreeOfNote_leading :
    ofFifths 2 .major = .ok ⟨⟨.d, .natural⟩, .major⟩ ∧
      degreeOfLetter ⟨⟨.d, .natural⟩, .major⟩ .c 4 =
        degreeOfNote ⟨⟨.d, .natural⟩, .major⟩ 61 := by
  have hkey : ofFifths 2 .major = .ok ⟨⟨.d, .natural⟩, .major⟩ := by
    decide
  have hiff := (degreeOfLetter_eq_degreeOfNote_iff hkey 6 4).2.2.1
  exact ⟨hkey, hiff.mpr (by decide)⟩

/-- Written in the octave of middle C, the tonic of C flat major has degree zero, and sounding it
has not. -/
theorem not_forall_degreeOfLetter_eq_degreeOfNote :
    ¬ ∀ (fifths : Int) (mode : Mode) (k : Key), ofFifths fifths mode = .ok k →
      ∀ (step : Fin 7) (octave : Int),
        k.degreeOfLetter (k.letterOfStep step) octave =
          k.degreeOfNote (k.noteOfStep step octave) := by
  intro h
  have hzero := h (-7) .major ⟨⟨.c, .flat⟩, .major⟩ (by decide) 0 4
  exact absurd hzero (by decide)

end Key

end PatternScore
