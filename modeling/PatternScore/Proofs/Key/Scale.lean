import Mathlib
import PatternScore.Proofs.Key.Spelling

/-!
# Degrees as the floor of a scale

The scale of a key goes on over all octaves, below the tonic as well as above it (`Key.scaleNote`).
A degree of the scale is not above a note exactly if it is at most the degree of the note
(`Key.scaleNote_le_iff`), so a note has the degree of the last note of the scale that is not above
it. That degrees ascend, are exact on the scale and go by seven for an octave follows from this
(`Key.degreeOfNote_floor`).
-/

namespace PatternScore

/-- In an ascending list the entries that are not above a number come first. -/
lemma getElem_le_iff_lt_countP {l : List Int} (h : l.Pairwise (· < ·)) (n : Int) {i : Nat}
    (hi : i < l.length) : l[i] ≤ n ↔ i < l.countP (· ≤ n) := by
  induction l generalizing i with
  | nil => exact absurd hi (Nat.not_lt_zero i)
  | cons x l ih =>
    obtain ⟨hx, hl⟩ := List.pairwise_cons.mp h
    by_cases hle : x ≤ n
    · rw [List.countP_cons_of_pos (by simpa using hle)]
      cases i with
      | zero => simpa using hle
      | succ i => simpa using ih hl (Nat.lt_of_succ_lt_succ hi)
    · have hnone : ∀ y ∈ x :: l, ¬ y ≤ n := by
        intro y hy
        obtain rfl | hy := List.mem_cons.mp hy
        · exact hle
        · have := hx y hy
          omega
      have hcount : (x :: l).countP (· ≤ n) = 0 := by
        rw [List.countP_eq_zero]
        simpa using hnone
      rw [hcount]
      exact iff_of_false (hnone _ (List.getElem_mem hi)) (Nat.not_lt_zero i)

namespace Key

/-- The number of the note that stands at a degree of the scale. -/
def scaleNote (k : Key) (degree : Int) : Int :=
  k.tonicNote + 12 * (degree / 7) + k.mode.intervals.getD (degree % 7).toNat 0

/-- Some octaves and a step of the scale above the tonic. -/
lemma scaleNote_add (k : Key) (octaves : Int) (step : Fin 7) :
    k.scaleNote (7 * octaves + step) = k.tonicNote + 12 * octaves + k.interval step := by
  have hoctaves : (7 * octaves + step) / 7 = octaves := by omega
  have hstep : ((7 * octaves + step) % 7).toNat = step := by omega
  rw [scaleNote, hoctaves, hstep, interval]

/-- Every degree is some octaves and a step above the tonic. -/
lemma exists_octaves_step (degree : Int) :
    ∃ (octaves : Int) (step : Fin 7), degree = 7 * octaves + step :=
  ⟨degree / 7, ⟨(degree % 7).toNat, by omega⟩, by simp only; omega⟩

/-! ## Steps within an octave -/

/-- The steps of a scale ascend. -/
lemma pairwise_intervals (mode : Mode) : mode.intervals.Pairwise (· < ·) := by
  cases mode <;> decide

/-- A scale has seven steps. -/
lemma length_intervals (mode : Mode) : mode.intervals.length = 7 := by
  cases mode <;> rfl

/-- A step is not above a distance from the tonic exactly if it is one of the first steps, as many
as are counted up to the distance. -/
lemma interval_le_iff (k : Key) (step : Fin 7) (distance : Int) :
    k.interval step ≤ distance ↔ (step : Nat) < k.mode.intervals.countP (· ≤ distance) := by
  have hlt : (step : Nat) < k.mode.intervals.length := by
    rw [length_intervals]
    exact step.isLt
  rw [← getElem_le_iff_lt_countP (pairwise_intervals k.mode) distance hlt, interval,
    List.getD_eq_getElem?_getD, List.getElem?_eq_getElem hlt, Option.getD_some]

/-- The tonic is counted up to every distance, and there are seven steps. -/
lemma countP_intervals_bounds (mode : Mode) {distance : Int} (h : 0 ≤ distance) :
    1 ≤ mode.intervals.countP (· ≤ distance) ∧ mode.intervals.countP (· ≤ distance) ≤ 7 := by
  constructor
  · refine List.countP_pos_iff.mpr ⟨0, ?_, by simpa using h⟩
    cases mode <;> decide
  · exact length_intervals mode ▸ List.countP_le_length

/-! ## Degrees and notes -/

/-- A degree of the scale is not above a note exactly if it is at most the degree of the note. -/
lemma scaleNote_le_iff (k : Key) (degree note : Int) :
    k.scaleNote degree ≤ note ↔ degree ≤ k.degreeOfNote note := by
  obtain ⟨octaves, step, rfl⟩ := exists_octaves_step degree
  obtain ⟨⟨hnonneg, hlt⟩, -⟩ := k.interval_spec step
  have hwithin : 0 ≤ (note - k.tonicNote) % 12 := Int.emod_nonneg _ (by decide)
  have hstep := k.interval_le_iff step ((note - k.tonicNote) % 12)
  obtain ⟨hone, hseven⟩ := countP_intervals_bounds k.mode hwithin
  rw [scaleNote_add, degreeOfNote]
  generalize k.mode.intervals.countP (· ≤ (note - k.tonicNote) % 12) = count at *
  -- In the octave of the note the steps decide; in another one both sides are plain.
  obtain hbelow | heq | habove := lt_trichotomy octaves ((note - k.tonicNote) / 12)
  · exact iff_of_true (by omega) (by omega)
  · rw [heq]
    constructor
    · intro h
      have := hstep.mp (by omega)
      omega
    · intro h
      have := hstep.mpr (by omega)
      omega
  · exact iff_of_false (by omega) (by omega)

/-- The note of a degree is not above a given one exactly if the degree is not above that of the
given note. So degrees round notes down to the scale. -/
lemma gc_scaleNote_degreeOfNote (k : Key) : GaloisConnection k.scaleNote k.degreeOfNote :=
  k.scaleNote_le_iff

/-- The degree of a note is that of the last note of the scale which is not above it. -/
lemma degreeOfNote_eq_iff (k : Key) (note degree : Int) :
    k.degreeOfNote note = degree ↔
      k.scaleNote degree ≤ note ∧ note < k.scaleNote (degree + 1) := by
  rw [← Int.not_le, scaleNote_le_iff, scaleNote_le_iff]
  omega

/-- The scale goes on alike in every octave. -/
lemma scaleNote_add_octaves (k : Key) (degree octaves : Int) :
    k.scaleNote (degree + 7 * octaves) = k.scaleNote degree + 12 * octaves := by
  obtain ⟨below, step, rfl⟩ := exists_octaves_step degree
  have hdegree : 7 * below + step + 7 * octaves = 7 * (below + octaves) + (step : Int) := by omega
  rw [hdegree, scaleNote_add, scaleNote_add]
  omega

/-- With the scale of a key standing over all octaves, the degree of a note is the only one whose
note in the scale is not above it while the next one is. So degrees ascend with the notes, are exact
on the notes of the scale, and are seven more for every octave. -/
theorem degreeOfNote_floor (k : Key) :
    (∀ (octaves : Int) (step : Fin 7), k.scaleNote (7 * octaves + step) =
      60 + k.tonicPitchClass + 12 * octaves + k.mode.intervals.getD step 0) ∧
    (∀ note degree : Int, k.degreeOfNote note = degree ↔
      k.scaleNote degree ≤ note ∧ note < k.scaleNote (degree + 1)) ∧
    Monotone k.degreeOfNote ∧
    (∀ degree : Int, k.degreeOfNote (k.scaleNote degree) = degree) ∧
    (∀ note octaves : Int, k.degreeOfNote (note + 12 * octaves) =
      k.degreeOfNote note + 7 * octaves) := by
  refine ⟨k.scaleNote_add, k.degreeOfNote_eq_iff, k.gc_scaleNote_degreeOfNote.monotone_u, ?_, ?_⟩
  · intro degree
    obtain ⟨octaves, step, rfl⟩ := exists_octaves_step degree
    rw [scaleNote_add, degreeOfNote_tonicNote_add]
  · intro note octaves
    obtain ⟨hle, hlt⟩ := (k.degreeOfNote_eq_iff note _).mp rfl
    rw [degreeOfNote_eq_iff, add_right_comm, scaleNote_add_octaves, scaleNote_add_octaves]
    omega

end Key

end PatternScore
