import Mathlib.Tactic
import PatternScore.Proofs.Bar.FixedUnits

/-!
# What counting in beats keeps

A bar that is counted in beats has as its unit the greatest length that measures the durations of
its fragments. So every duration is kept (`Slot.quantize_counts`). The offsets take part in the
search for the multiplier but not in the division by the common divisor, which comes after it. An
offset is kept exactly if whatever measures the durations measures it too, as it does where the
fragments follow each other without a gap; any other offset is rounded to the nearest unit. Three
notes of two beats that begin one beat after another have a unit of two beats, and the second and
the third note begin together when they are counted (`Slot.not_forall_offset_kept`).
-/

namespace PatternScore

namespace Units

/-- What measures all the durations measures the length. -/
def FollowsFrom (durations : List Rat) (x : Rat) : Prop :=
  ∀ step, (∀ d ∈ durations, IsWhole step d) → IsWhole step x

/-- Of the lengths that follow from the durations, their unit measures each. -/
lemma isWhole_iff_followsFrom {durations : List Rat} {unit : Rat}
    (hwhole : ∀ d ∈ durations, IsWhole unit d)
    (hgreatest : ∀ step, (∀ d ∈ durations, IsWhole step d) → IsWhole step unit) (x : Rat) :
    IsWhole unit x ↔ FollowsFrom durations x := by
  constructor
  · intro hx step hstep
    obtain ⟨n, rfl⟩ := hx
    rw [mul_comm]
    exact (hgreatest step hstep).mul_int n
  · intro hx
    exact hx unit hwhole

/-- The nearest whole number of units is half a unit away at most. -/
lemma abs_floor_mul_sub_le {unit : Rat} (hunit : 0 < unit) (x : Rat) :
    |⌊x / unit + 1 / 2⌋ * unit - x| ≤ unit / 2 := by
  have hx : x / unit * unit = x := div_mul_cancel₀ x hunit.ne'
  have hle : (⌊x / unit + 1 / 2⌋ : Rat) * unit ≤ (x / unit + 1 / 2) * unit :=
    mul_le_mul_of_nonneg_right (Int.floor_le _) hunit.le
  have hlt : (x / unit + 1 / 2) * unit < (⌊x / unit + 1 / 2⌋ + 1) * unit :=
    mul_lt_mul_of_pos_right (Int.lt_floor_add_one _) hunit
  rw [abs_le]
  constructor <;> linarith

/-- The nearest whole number of units is exact if there is an exact one. -/
lemma floor_mul_eq_iff {unit : Rat} (hunit : 0 < unit) (x : Rat) :
    ⌊x / unit + 1 / 2⌋ * unit = x ↔ IsWhole unit x := by
  constructor
  · intro h
    exact ⟨_, h.symm⟩
  · intro h
    have hround := h.roundHalfUp hunit
    rw [Scalar.rat_roundHalfUp] at hround
    rw [Except.ok.inj hround]
    exact h.count_mul

end Units

/-- A fragment among others is counted in a unit. -/
structure Fragment.CountedIn (unit : Rat) (durations : List Rat) (f f' : Fragment Rat) : Prop where
  /-- Nothing but its units changes. -/
  same : f' = { f with units := f'.units, offsetUnits := f'.offsetUnits }
  /-- Its duration is kept. -/
  duration_eq : f'.units * unit = f.duration
  /-- Its offset is kept exactly if it follows from the durations. -/
  offset_eq_iff : f'.offsetUnits * unit = f.offset ↔ Units.FollowsFrom durations f.offset
  /-- In any case it is moved by half a unit at most. -/
  offset_near : |f'.offsetUnits * unit - f.offset| ≤ unit / 2

namespace Slot

/-- A fragment is counted by the greatest unit of the durations. -/
lemma countedIn_rounded {unit : Rat} (hunit : 0 < unit) {durations : List Rat}
    (hwhole : ∀ d ∈ durations, Units.IsWhole unit d)
    (hgreatest : ∀ step, (∀ d ∈ durations, Units.IsWhole step d) → Units.IsWhole step unit)
    {f : Fragment Rat} (hf : f.duration ∈ durations) :
    Fragment.CountedIn unit durations f (rounded unit f) where
  same := rfl
  duration_eq := (hwhole _ hf).count_mul
  offset_eq_iff := by
    rw [← Units.isWhole_iff_followsFrom hwhole hgreatest]
    exact Units.floor_mul_eq_iff hunit f.offset
  offset_near := Units.abs_floor_mul_sub_le hunit f.offset

/-- In beats, a bar is counted whenever its durations and offsets are whole multiples of a part of
a beat that is allowed and that the tolerance tells apart. The durations are kept, and so are those
offsets that follow from the durations; every other offset is rounded. -/
theorem quantize_counts {m : Measure Rat} {s : Slot Rat} {parts : Nat} (hmode : m.mode = .fixed)
    (hbeat : 0 < m.length / m.beats) (hparts : 0 < parts)
    (hmost : (parts : Int) ≤ m.search.maxMultiplier)
    (htolerance : 0 ≤ m.search.tolerance * m.search.maxMultiplier)
    (hsmall : m.search.tolerance * m.search.maxMultiplier < 1)
    (hduration : ∀ f ∈ s.fragments,
      0 < f.duration ∧ Units.IsWhole (m.length / m.beats / parts) f.duration)
    (hoffset : ∀ f ∈ s.fragments,
      0 ≤ f.offset ∧ Units.IsWhole (m.length / m.beats / parts) f.offset) :
    ∃ s', s.quantize m = .ok s' ∧ (s.fragments ≠ [] → 0 < s'.unit) ∧
      List.Forall₂ (Fragment.CountedIn s'.unit (s.fragments.map (·.duration))) s.fragments
        s'.fragments := by
  by_cases hne : s.fragments = []
  · refine ⟨s, ?_, fun h => absurd hne h, ?_⟩
    · rw [quantize, hne]
      rfl
    · rw [hne]
      exact .nil
  · have hmaximum : (0 : Rat) < m.search.maxMultiplier := by
      have : 0 < m.search.maxMultiplier := by omega
      exact_mod_cast this
    have htolerance' : 0 ≤ m.search.tolerance := nonneg_of_mul_nonneg_left htolerance hmaximum
    obtain ⟨unit, hunit, hwhole, hgreatest, heq⟩ :=
      exists_quantize_rounded hmode hbeat hparts hmost htolerance' hsmall hne hduration
        fun f hf => (hoffset f hf).2
    refine ⟨_, heq, fun _ => hunit, ?_⟩
    rw [List.forall₂_map_right_iff, List.forall₂_same]
    intro f hf
    apply countedIn_rounded hunit
    · simpa using hwhole
    · simpa using hgreatest
    · exact List.mem_map_of_mem hf

/-- Bars of four beats in two seconds. -/
def fourBeats : Measure Rat where
  length := 2000
  mode := .fixed
  search := { tolerance := 1 / 100 }

/-- A dotted quarter note and an eighth note under a half note. -/
def dotted : Slot Rat where
  index := 0
  fragments := [
    { offset := 0, duration := 1000, pitch := some 0 },
    { offset := 0, duration := 750, pitch := some 4 },
    { offset := 750, duration := 250, pitch := some 5 }]
  unit := 0

/-- The eighth note is the unit. -/
theorem quantize_counts_dotted :
    ∃ s', dotted.quantize fourBeats = .ok s' ∧ s'.unit = 250 ∧
      List.Forall₂ (Fragment.CountedIn 250 (dotted.fragments.map (·.duration))) dotted.fragments
        s'.fragments := by
  have hparts : (0 : Nat) < 2 := by decide
  obtain ⟨s', hs', -, hcounted⟩ :=
    quantize_counts (m := fourBeats) (s := dotted) rfl (by decide +kernel) hparts (by decide)
      (by decide +kernel) (by decide +kernel) (by decide +kernel) (by decide +kernel)
  have hunit : (dotted.quantize fourBeats).map (·.unit) = .ok 250 := by
    cbv
  rw [hs'] at hunit
  have heq : s'.unit = 250 := Except.ok.inj hunit
  rw [heq] at hcounted
  exact ⟨s', hs', heq, hcounted⟩

/-- Three notes of two beats, one beat after another. -/
def staggered : Slot Rat where
  index := 0
  fragments := [
    { offset := 0, duration := 1000, pitch := some 0 },
    { offset := 500, duration := 1000, pitch := some 2 },
    { offset := 1000, duration := 1000, pitch := some 4 }]
  unit := 0

/-- Offsets need not be kept: the second note is counted as if it began with the third. -/
theorem not_forall_offset_kept :
    ¬ ∀ (m : Measure Rat) (s s' : Slot Rat) (parts : Nat), m.mode = .fixed →
      0 < m.length → 0 < m.beats → 0 < parts → (parts : Int) ≤ m.search.maxMultiplier →
      0 ≤ m.search.tolerance * m.search.maxMultiplier →
      m.search.tolerance * m.search.maxMultiplier < 1 →
      (∀ f ∈ s.fragments,
        0 < f.duration ∧ Units.IsWhole (m.length / m.beats / parts) f.duration) →
      (∀ f ∈ s.fragments, 0 ≤ f.offset ∧ Units.IsWhole (m.length / m.beats / parts) f.offset) →
      s.quantize m = .ok s' → ∀ f' ∈ s'.fragments,
        f'.units * s'.unit = f'.duration ∧ f'.offsetUnits * s'.unit = f'.offset := by
  intro hall
  have hquantize : staggered.quantize fourBeats = .ok {
      index := 0
      fragments := [
        { offset := 0, duration := 1000, pitch := some 0, units := 1 },
        { offset := 500, duration := 1000, pitch := some 2, units := 1, offsetUnits := 1 },
        { offset := 1000, duration := 1000, pitch := some 4, units := 1, offsetUnits := 1 }]
      unit := 1000
      target := 2 } := by
    cbv
  have hkept := hall _ _ _ 1 rfl (by decide +kernel) (by decide) one_pos (by decide)
    (by decide +kernel) (by decide +kernel) (by decide +kernel) (by decide +kernel) hquantize
    { offset := 500, duration := 1000, pitch := some 2, units := 1, offsetUnits := 1 } (by simp)
  norm_num at hkept

end Slot

end PatternScore
