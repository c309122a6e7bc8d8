import PatternScore.Bar.Layout
import PatternScore.Proofs.Sequence

/-!
# Failures that end a conversion

Only a failure about the bar grid drops a single voice; any other is fatal, it ends the conversion.
Arithmetic fails in no way that is about the grid, so whatever goes wrong when bars are measured and
laid out is fatal (`Slot.fatal_quantize`, `Slot.fatal_group`).
-/

namespace PatternScore

/-- The failure is not about the bar grid. -/
def Failure.Fatal (f : Failure) : Prop :=
  f.kind ≠ .configuration

/-- The kinds of failures can be compared. -/
instance (f : Failure) : Decidable f.Fatal :=
  inferInstanceAs (Decidable (¬ _))

variable {τ : Type} [Scalar τ]

/-! ## Arithmetic -/

namespace Scalar

/-- An integer that is too large for a scalar is fatal. -/
lemma fatal_ofInt (n : Int) : FailsIn Failure.Fatal (ofInt n : Except Failure τ) := by
  unfold ofInt
  dsimp only
  split
  · exact failsIn_ok _
  · exact failsIn_error (by decide)

/-- A division by zero is fatal. -/
lemma fatal_div (x y : τ) : FailsIn Failure.Fatal (div x y) := by
  unfold div
  split
  · exact failsIn_error (by decide)
  · exact failsIn_ok _

/-- So is a quotient of integers that is too large. -/
lemma fatal_ratio (n d : Int) : FailsIn Failure.Fatal (ratio n d : Except Failure τ) := by
  unfold ratio
  split
  · exact failsIn_error (by decide)
  · dsimp only
    split
    · exact failsIn_ok _
    · exact failsIn_error (by decide)

/-- Rounding what is no finite number is fatal. -/
lemma fatal_roundHalfUp (x : τ) : FailsIn Failure.Fatal (roundHalfUp x) := by
  unfold roundHalfUp rounded
  split
  · exact failsIn_ok _
  · exact failsIn_error (by decide)
  · exact failsIn_error (by decide)

/-- The rounding of a quotient. -/
lemma fatal_roundHalfUp_div (x y : τ) :
    FailsIn Failure.Fatal (do Scalar.roundHalfUp (← Scalar.div x y)) :=
  (fatal_div x y).bind fatal_roundHalfUp

/-- The rounding of a quotient of integers. -/
lemma fatal_roundHalfUp_ratio (τ : Type) [Scalar τ] (n d : Int) :
    FailsIn Failure.Fatal (do
      let quotient : τ ← Scalar.ratio n d
      Scalar.roundHalfUp quotient) :=
  (fatal_ratio n d).bind fatal_roundHalfUp

end Scalar

open Scalar

/-! ## Measuring -/

namespace Units

/-- Whether a duration fits a split is told by a quotient and a rounding, and their failures are
fatal. -/
lemma fatal_fits (tolerance minimum : τ) (subdivision : Int) (duration : τ) :
    FailsIn Failure.Fatal (fits tolerance minimum subdivision duration) := by
  refine (fatal_div _ _).bind fun relative => ?_
  refine (fatal_roundHalfUp _).bind fun count => ?_
  refine (fatal_ratio _ _).bind fun nearest => ?_
  exact failsIn_ok _

/-- The search for a split of the shortest duration fails only where one of its comparisons does. -/
lemma fatal_subdivisionFrom (search : UnitSearch τ) (minimum : τ) (durations : List τ)
    (subdivisions : List Int) :
    FailsIn Failure.Fatal (subdivisionFrom search minimum durations subdivisions) := by
  induction subdivisions with
  | nil => exact failsIn_ok _
  | cons subdivision finer ih =>
    unfold subdivisionFrom
    split
    · exact failsIn_ok _
    · refine (FailsIn.allM (fatal_fits _ _ _) _).bind fun fit => ?_
      split
      · exact failsIn_ok _
      · exact ih

/-- The count of a duration is a rounded quotient. -/
lemma fatal_countOf (quantum duration : τ) : FailsIn Failure.Fatal (countOf quantum duration) := by
  unfold countOf
  split
  · refine (fatal_div _ _).bind fun quotient => ?_
    refine (fatal_roundHalfUp _).bind fun count => ?_
    exact failsIn_ok _
  · exact failsIn_ok _

/-- Measuring durations by their shortest is a search and a count for each of them. -/
lemma fatal_ofDurations (search : UnitSearch τ) (durations : List τ) :
    FailsIn Failure.Fatal (ofDurations search durations) := by
  unfold ofDurations
  split
  · exact failsIn_ok _
  · refine (fatal_subdivisionFrom _ _ _ _).bind fun subdivision => ?_
    refine (fatal_div _ _).bind fun quantum => ?_
    refine (FailsIn.mapM (fatal_countOf quantum) _).bind fun counts => ?_
    exact failsIn_ok _

/-- Whether a multiple of a count of beats is nearly whole is told by a rounding. -/
lemma fatal_isNearlyWhole (tolerance : τ) (multiplier : Int) (x : τ) :
    FailsIn Failure.Fatal (isNearlyWhole tolerance multiplier x) := by
  refine (fatal_roundHalfUp _).bind fun whole => ?_
  refine (fatal_ofInt _).bind fun whole => ?_
  exact failsIn_ok _

/-- The search for a multiplier fails only where one of its comparisons does. -/
lemma fatal_multiplierFrom (tolerance : τ) (values : List τ) (tries : Nat) (multiplier : Int) :
    FailsIn Failure.Fatal (multiplierFrom tolerance values tries multiplier) := by
  induction tries generalizing multiplier with
  | zero => exact failsIn_ok _
  | succ tries ih =>
    unfold multiplierFrom
    refine (FailsIn.allM (fatal_isNearlyWhole _ _) _).bind fun whole => ?_
    split
    · exact failsIn_ok _
    · exact ih _

/-- The count of a beat value is a rounded product. -/
lemma fatal_countOfBeats (multiplier : Int) (beats : τ) :
    FailsIn Failure.Fatal (countOfBeats multiplier beats) := by
  refine (fatal_roundHalfUp _).bind fun count => ?_
  exact failsIn_ok _

/-- Measuring by beats is a search for the multiplier, a count for each duration and offset, and
divisions. -/
lemma fatal_ofBeats (search : UnitSearch τ) (length : τ) (beats : Int)
    (durations offsets : List τ) :
    FailsIn Failure.Fatal (ofBeats search length beats durations offsets) := by
  refine (fatal_ofInt _).bind fun beats => ?_
  refine (fatal_div _ _).bind fun beat => ?_
  refine (FailsIn.mapM (fun d => fatal_div d beat) _).bind fun durations => ?_
  refine (FailsIn.mapM (fun d => fatal_div d beat) _).bind fun offsets => ?_
  refine FailsIn.bind ?_ fun multiplier => ?_
  · refine (fatal_multiplierFrom _ _ _ _).bind fun found => ?_
    exact failsIn_ok _
  · refine (FailsIn.mapM (fatal_countOfBeats multiplier) _).bind fun counts => ?_
    refine (fatal_div _ _).bind fun part => ?_
    exact failsIn_ok _

end Units

namespace Slot

/-- Either way of measuring fails only in arithmetic. -/
lemma fatal_findUnits (m : Measure τ) (fragments : List (Fragment τ)) :
    FailsIn Failure.Fatal (findUnits m fragments) := by
  unfold findUnits
  split
  · exact (Units.fatal_ofDurations _ _).bind fun found => failsIn_ok _
  · exact (Units.fatal_ofBeats _ _ _ _ _).bind fun found => failsIn_ok _

/-- Giving fragments their units rounds a quotient for each of them. -/
lemma fatal_assignUnits (unit : τ) (fragments : List (Fragment τ)) (units : List Int) :
    FailsIn Failure.Fatal (assignUnits unit fragments units).2 := by
  induction fragments generalizing units with
  | nil => exact failsIn_ok _
  | cons f rest ih =>
    cases units with
    | nil => exact failsIn_ok _
    | cons n more =>
      unfold assignUnits
      cases hoffset : (do
          let quotient ← Scalar.div f.offset unit
          Scalar.roundHalfUp quotient) with
      | error failure => exact failsIn_error (fatal_roundHalfUp_div f.offset unit failure hoffset)
      | ok offsetUnits => exact ih more

omit [Scalar τ] in
/-- A failure stays what it is when the slot is kept with it. -/
lemma fatal_mapError {α : Type} {x : Except Failure α} (h : FailsIn Failure.Fatal x) (s : Slot τ) :
    FailsIn (fun stopped : Stopped τ => stopped.failure.Fatal) (x.mapError (⟨·, s⟩)) :=
  h.mapError fun _ hf => hf

/-- What stops the measuring of a bar is fatal. -/
lemma fatal_quantize (m : Measure τ) (s : Slot τ) :
    FailsIn (fun stopped => stopped.failure.Fatal) (s.quantize m) := by
  unfold quantize
  split
  · exact failsIn_ok _
  · apply (fatal_mapError (fatal_findUnits m s.fragments) s).bind
    rintro ⟨units, unit⟩
    apply (fatal_mapError (fatal_assignUnits unit s.fragments units) _).bind
    intro _
    apply (fatal_mapError (fatal_roundHalfUp_div m.length unit) _).bind
    intro target
    exact failsIn_ok _

/-- What stops the laying out of a bar is fatal. -/
lemma fatal_group (mode : ChordMode) (s : Slot τ) :
    FailsIn (fun stopped => stopped.failure.Fatal) (s.group mode) := by
  unfold group
  dsimp only
  split
  · exact failsIn_ok _
  · apply (fatal_mapError (fatal_ofInt _) s).bind
    intro factor
    apply (fatal_mapError (fatal_roundHalfUp_ratio τ s.target _) _).bind
    intro target
    exact failsIn_ok _

end Slot

end PatternScore
