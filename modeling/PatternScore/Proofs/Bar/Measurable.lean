import PatternScore.Bar.Layout
import PatternScore.Proofs.Bar.MinimalUnit

/-!
# Which bars are measured and laid out

Over exact arithmetic the minimal way measures every bar, and so does the fixed way unless no
multiplier is allowed; then it divides by zero (`Slot.exists_quantize_eq_ok`,
`Slot.quantize_eq_error`). A measured bar is always laid out.
-/

namespace PatternScore

namespace Units

/-- The multiplier that is found is zero only if no multiplier is allowed, and then always. -/
lemma exists_fixedMultiplier_eq (search : UnitSearch Rat) (values : List Rat) :
    ∃ multiplier, fixedMultiplier search values = .ok multiplier ∧
      (multiplier = 0 ↔ search.maxMultiplier = 0) := by
  unfold fixedMultiplier
  rw [multiplierFrom_eq]
  refine ⟨_, rfl, ?_⟩
  cases hfound : ((List.range search.maxMultiplier.toNat).map fun i : Nat => 1 + (i : Int)).find?
      fun k => values.all (nearlyWhole search.tolerance k) with
  | none => exact Iff.rfl
  | some multiplier =>
    have hmem := List.mem_of_find?_eq_some hfound
    obtain ⟨i, hi, rfl⟩ := List.mem_map.mp hmem
    have hlt := List.mem_range.mp hi
    rw [Option.getD_some]
    omega

/-- The number of units of a duration that lasts `beats`, without a failure. -/
def roundedCount (multiplier : Int) (beats : Rat) : Int :=
  if 1 < ⌊beats * multiplier + 1 / 2⌋ then ⌊beats * multiplier + 1 / 2⌋ else 1

variable {search : UnitSearch Rat} {length : Rat} {beats : Int}

/-- Up to the length of a unit nothing fails. -/
lemma exists_ofBeats_eq (search : UnitSearch Rat) (hlength : length ≠ 0) (hbeats : beats ≠ 0)
    (durations offsets : List Rat) :
    ∃ (counts : List Int) (multiplier : Int),
      (multiplier = 0 ↔ search.maxMultiplier = 0) ∧
      ofBeats search length beats durations offsets = (do
        let part ← Scalar.div (length / (beats : Rat)) (Scalar.nearest multiplier)
        return (counts.map (· / commonDivisor counts),
          part * Scalar.nearest (commonDivisor counts))) := by
  have hbeatsRat : (beats : Rat) ≠ 0 := by exact_mod_cast hbeats
  have hbeat : length / (beats : Rat) ≠ 0 := div_ne_zero hlength hbeatsRat
  have hdiv : ∀ l : List Rat, l.mapM (Scalar.div · (length / (beats : Rat))) =
      .ok (l.map (· / (length / (beats : Rat)))) :=
    fun l => mapM_eq_ok fun _ _ => Scalar.rat_div hbeat
  obtain ⟨multiplier, hmultiplier, hzero⟩ := exists_fixedMultiplier_eq search
    (durations.map (· / (length / (beats : Rat))) ++ offsets.map (· / (length / (beats : Rat))))
  have hcounts : ∀ l : List Rat,
      l.mapM (countOfBeats multiplier) = .ok (l.map (roundedCount multiplier)) :=
    fun l => mapM_eq_ok fun _ _ => rfl
  refine ⟨(durations.map (· / (length / (beats : Rat)))).map (roundedCount multiplier),
    multiplier, hzero, ?_⟩
  unfold ofBeats
  simp only [Scalar.rat_ofInt, Scalar.rat_div hbeatsRat, hdiv, hmultiplier, hcounts, bind,
    Except.bind]

/-- The fixed way measures all durations, if a multiplier is allowed. -/
lemma exists_ofBeats_eq_ok (hlength : length ≠ 0) (hbeats : beats ≠ 0)
    (hmost : search.maxMultiplier ≠ 0) (durations offsets : List Rat) :
    ∃ units unit, ofBeats search length beats durations offsets = .ok (units, unit) := by
  obtain ⟨counts, multiplier, hzero, heq⟩ :=
    exists_ofBeats_eq search hlength hbeats durations offsets
  have hmultiplier : (multiplier : Rat) ≠ 0 := by exact_mod_cast mt hzero.mp hmost
  rw [heq, Scalar.rat_nearest, Scalar.rat_div hmultiplier]
  exact ⟨_, _, rfl⟩

/-- The fixed way measures nothing, if no multiplier is allowed. -/
lemma ofBeats_eq_error (hlength : length ≠ 0) (hbeats : beats ≠ 0)
    (hmost : search.maxMultiplier = 0) (durations offsets : List Rat) :
    ofBeats search length beats durations offsets = .error .divisionByZero := by
  obtain ⟨counts, multiplier, hzero, heq⟩ :=
    exists_ofBeats_eq search hlength hbeats durations offsets
  rw [heq, hzero.mpr hmost]
  rfl

end Units

namespace Slot

variable {m : Measure Rat}

/-- Offsets are counted in any unit. -/
lemma exists_assignUnits {unit : Rat} (hunit : unit ≠ 0) (fragments : List (Fragment Rat))
    (units : List Int) : ∃ done, assignUnits unit fragments units = (done, .ok ()) := by
  induction fragments generalizing units with
  | nil => exact ⟨[], by cases units <;> rfl⟩
  | cons f rest ih =>
    cases units with
    | nil => exact ⟨f :: rest, rfl⟩
    | cons n more =>
      obtain ⟨done, hdone⟩ := ih more
      simp only [assignUnits, Scalar.rat_div hunit, Scalar.rat_roundHalfUp, hdone, bind,
        Except.bind]
      exact ⟨_, rfl⟩

/-- A bar is measured if its units are found. -/
lemma exists_quantize_of_findUnits {s : Slot Rat}
    (h : ∃ units unit, findUnits m s.fragments = .ok (units, unit) ∧ unit ≠ 0) :
    ∃ s', s.quantize m = .ok s' := by
  obtain ⟨units, unit, hfound, hunit⟩ := h
  obtain ⟨done, hdone⟩ := exists_assignUnits hunit s.fragments units
  unfold quantize
  split
  · exact ⟨s, rfl⟩
  · simp only [hfound, hdone, Scalar.rat_div hunit, Scalar.rat_roundHalfUp, Except.mapError, bind,
      Except.bind]
    exact ⟨_, rfl⟩

/-- The unit of a bar is not zero, whatever is found. -/
lemma unit_ne_zero (hlength : 0 < m.length) (unit : Rat) :
    (if unit ≤ Scalar.zero then m.length else unit) ≠ 0 := by
  split
  · exact hlength.ne'
  · rename_i hunit
    exact (not_le.mp hunit).ne'

/-- The minimal way measures every bar, the fixed way if a multiplier is allowed. -/
lemma exists_quantize_eq_ok (hlength : 0 < m.length) (hbeats : m.beats ≠ 0)
    (h : m.mode = .fixed → m.search.maxMultiplier ≠ 0) (s : Slot Rat) :
    ∃ s', s.quantize m = .ok s' := by
  obtain ⟨units, unit, hfound⟩ : ∃ units unit, findUnits m s.fragments =
      .ok (units, if unit ≤ Scalar.zero then m.length else unit) := by
    unfold findUnits
    cases hmode : m.mode with
    | minimal =>
      obtain ⟨units, unit, hfound⟩ :=
        Units.exists_ofDurations m.search (s.fragments.map (·.duration))
      simp only [hfound, bind, Except.bind]
      exact ⟨units, unit, rfl⟩
    | fixed =>
      obtain ⟨units, unit, hfound⟩ := Units.exists_ofBeats_eq_ok hlength.ne' hbeats (h hmode)
        (s.fragments.map (·.duration)) (s.fragments.map (·.offset))
      simp only [hfound, bind, Except.bind]
      exact ⟨units, unit, rfl⟩
  exact exists_quantize_of_findUnits ⟨units, _, hfound, unit_ne_zero hlength unit⟩

/-- The fixed way measures no bar that holds anything, if no multiplier is allowed. -/
lemma quantize_eq_error (hlength : 0 < m.length) (hbeats : m.beats ≠ 0) (hmode : m.mode = .fixed)
    (hmost : m.search.maxMultiplier = 0) {s : Slot Rat} (hne : s.fragments ≠ []) :
    s.quantize m = .error ⟨.divisionByZero, s⟩ := by
  have hfound : findUnits m s.fragments = .error .divisionByZero := by
    unfold findUnits
    rw [hmode]
    simp only [Units.ofBeats_eq_error hlength.ne' hbeats hmost, bind, Except.bind]
  have hnotEmpty : ¬ s.fragments.isEmpty := by simpa using hne
  unfold quantize
  rw [if_neg hnotEmpty, hfound]
  rfl

/-- Every bar is measured, or none that holds anything. -/
lemma quantize_all_or_none (hlength : 0 < m.length) (hbeats : m.beats ≠ 0) :
    (∀ s : Slot Rat, ∃ s', s.quantize m = .ok s') ∨
      ∀ s : Slot Rat, s.fragments ≠ [] → s.quantize m = .error ⟨.divisionByZero, s⟩ := by
  by_cases h : m.mode = .fixed → m.search.maxMultiplier ≠ 0
  · exact .inl (exists_quantize_eq_ok hlength hbeats h)
  · rw [Classical.not_imp, not_not] at h
    exact .inr fun s hne => quantize_eq_error hlength hbeats h.1 h.2 hne

/-- Every measured bar is laid out. -/
lemma exists_group_eq_ok (mode : ChordMode) (s : Slot Rat) : ∃ s', s.group mode = .ok s' := by
  unfold group
  dsimp only
  split
  · exact ⟨_, rfl⟩
  · rename_i hdivisor
    simp only [Bool.or_eq_true, decide_eq_true_eq, not_or] at hdivisor
    have hne : Units.commonDivisor (((Span.layOut (Span.collect mode s.fragments)).filter
        (0 < ·.units)).map (·.units)) ≠ 0 := by omega
    simp only [Scalar.rat_ofInt, Scalar.rat_ratio hne, Scalar.rat_roundHalfUp, Except.mapError,
      bind, Except.bind]
    exact ⟨_, rfl⟩

end Slot

end PatternScore
