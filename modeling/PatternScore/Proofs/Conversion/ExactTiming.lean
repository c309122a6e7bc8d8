import PatternScore.Conversion.Bars
import PatternScore.Proofs.Bar.Performance
import PatternScore.Proofs.Notation.Agreement

/-!
# Conversions that lose no time

A conversion is exact in time if its bars are measured in beats and if a beat has an allowed number
of steps that neither tolerance can confuse. `ExactTiming` holds such a conversion's settings with
what is asked of them. Events that keep to the steps then pass all stages: they are cut into bars
without loss, every bar is rendered, and the checks find nothing (`exists_performance`,
`checkAll_eq`).
-/

namespace PatternScore

/-! ## What is heard -/

namespace Event

variable {events : List (Event Rat)} {epsilon : Rat} {e : Event Rat}

/-- Events in the order of their onsets stay in it. -/
lemma audible_eq (epsilon : Rat) (h : events.Pairwise fun e f => e.onset ≤ f.onset) :
    audible epsilon events = events.filter (isAudible epsilon) := by
  refine List.mergeSort_of_pairwise ((h.filter _).imp fun {e f} hle => ?_)
  have hnot : ¬ f.onset < e.onset := not_lt.mpr hle
  simp [precedes, hnot]

/-- A note that takes time is heard. -/
lemma isAudible_of_note (hduration : 0 < e.duration) (hnote : e.pitch.isSome) :
    isAudible epsilon e = true := by
  have hlasts : ¬ e.duration ≤ Scalar.zero := not_le.mpr hduration
  have hrest : e.isRest = false := by
    obtain ⟨p, hpitch⟩ := Option.isSome_iff_exists.mp hnote
    rw [isRest, hpitch]
    rfl
  simp [isAudible, hlasts, hrest]

end Event

/-! ## Exact timing -/

/-- A meter and a tempo give the length of a bar. -/
lemma Header.barLength_eq {h : Header Rat} (hnumerator : 0 < h.numerator)
    (hdenominator : 0 < h.denominator) (htempo : 0 < h.tempo) :
    h.barLength = .ok (h.numerator * ((4 : Int) / h.denominator) * (60000 / h.tempo)) := by
  have hmeter : ¬ (h.numerator ≤ 0 ∨ h.denominator ≤ 0) := by omega
  have hbeats : h.beatsPerBar = .ok (h.numerator * ((4 : Int) / h.denominator)) := by
    rw [beatsPerBar, if_neg hmeter, Scalar.rat_ratio hdenominator.ne', Scalar.rat_ofInt]
    rfl
  have hslow : ¬ h.tempo ≤ Scalar.zero := not_le.mpr htempo
  have hbeat : h.msPerBeat = .ok (60000 / h.tempo) := by
    rw [msPerBeat, if_neg hslow]
    exact Scalar.rat_div htempo.ne'
  rw [barLength, hbeats, hbeat]
  rfl

/-- A header that gives bars a length gives them beats, and the length is positive. -/
lemma Header.pos_of_barLength {h : Header Rat} {length : Rat} (hlength : h.barLength = .ok length) :
    0 < h.numerator ∧ 0 < length := by
  have hmeter : ¬ (h.numerator ≤ 0 ∨ h.denominator ≤ 0) := by
    intro hdegenerate
    rw [barLength, beatsPerBar, if_pos hdegenerate] at hlength
    cases hlength
  push Not at hmeter
  obtain ⟨hnumerator, hdenominator⟩ := hmeter
  have htempo : (0 : Rat) < h.tempo := by
    by_contra hslow
    have hrefused : h.msPerBeat = .error (.tempoNotPositive (Scalar.text h.tempo)) :=
      if_pos (not_lt.mp hslow)
    rw [barLength, hrefused] at hlength
    cases hbeats : h.beatsPerBar <;> rw [hbeats] at hlength <;> cases hlength
  rw [barLength_eq hnumerator hdenominator htempo] at hlength
  obtain rfl := Except.ok.inj hlength
  have hnumerator' : (0 : Rat) < h.numerator := by exact_mod_cast hnumerator
  have hdenominator' : (0 : Rat) < h.denominator := by exact_mod_cast hdenominator
  exact ⟨hnumerator, by positivity⟩

/-- The settings of a conversion, with a number of steps of a beat that they allow. -/
structure ExactTiming (p : VoicePlan Rat) where
  /-- The length of a bar. -/
  length : Rat
  /-- Rests shorter than this are left out. -/
  epsilon : Rat
  /-- The slack in comparisons with bar lines. -/
  tolerance : Rat
  /-- The error that is accepted in units. -/
  unitTolerance : Rat
  /-- The greatest multiplier of beats. -/
  maxMultiplier : Int
  /-- How many steps a beat has. -/
  parts : Nat
  /-- The meter and the tempo give the length of a bar. -/
  barLength_eq : p.header.barLength = .ok length
  /-- The settings hold the values. -/
  restEpsilon_eq : p.settings.restEpsilon = .value epsilon
  tolerance_eq : p.settings.tolerance = .value tolerance
  quantizeTolerance_eq : p.settings.quantizeTolerance = .value unitTolerance
  maxMultiplier_eq : p.settings.maxMultiplier = .value maxMultiplier
  /-- Bars are measured in beats. -/
  mode_eq : p.policy.quantizeMode = .fixed
  /-- There is no upbeat. -/
  pickup_eq : p.pickup = 0
  /-- A beat has as many steps as allowed. -/
  parts_pos : 0 < parts
  parts_le : (parts : Int) ≤ maxMultiplier
  /-- The slack is shorter than a step. -/
  tolerance_nonneg : 0 ≤ tolerance
  tolerance_lt : tolerance < length / p.header.numerator / parts
  /-- The error is smaller than the smallest part of a beat. -/
  unitTolerance_nonneg : 0 ≤ unitTolerance
  unitTolerance_lt : unitTolerance * maxMultiplier < 1

namespace ExactTiming

variable {p : VoicePlan Rat} (t : ExactTiming p)

/-- The step to which events keep. -/
def step : Rat :=
  t.length / p.header.numerator / t.parts

/-- The grid of the bars. -/
def grid : Grid Rat :=
  p.grid t.length t.tolerance

/-- The limits of the search for a unit. -/
def search : UnitSearch Rat :=
  { tolerance := t.unitTolerance
    maxSubdivision := p.settings.maxSubdivision
    maxMultiplier := t.maxMultiplier }

/-- Bars have a length, as their meter and tempo are usable. -/
lemma length_pos : 0 < t.length :=
  (Header.pos_of_barLength t.barLength_eq).2

/-- A bar lasts whole steps. -/
lemma steps : t.grid.Steps t.step := by
  refine ⟨t.length_pos, t.tolerance_nonneg, t.tolerance_lt, p.header.numerator * t.parts, ?_⟩
  have hbeats : (p.header.numerator : Rat) ≠ 0 := by
    exact_mod_cast (Header.pos_of_barLength t.barLength_eq).1.ne'
  have hparts : (t.parts : Rat) ≠ 0 := by exact_mod_cast t.parts_pos.ne'
  change t.length = _
  unfold step
  push_cast
  field_simp

/-- Without an upbeat nothing is moved. -/
lemma shift?_grid : t.grid.shift? = none :=
  Grid.shift?_eq_none t.tolerance_nonneg t.pickup_eq.le

/-- Every bar is measured in the same way. -/
lemma search_eq (s : Slot Rat) : p.search s = .ok t.search := by
  rw [VoicePlan.search, t.maxMultiplier_eq, t.quantizeTolerance_eq]
  rfl

/-- The steps are resolved. -/
lemma resolves : (p.measure t.length t.search).Resolves t.step := by
  obtain ⟨hbeats, hlength⟩ := Header.pos_of_barLength t.barLength_eq
  exact ⟨t.mode_eq, hlength, hbeats, ⟨t.parts, t.parts_pos, t.parts_le, rfl⟩,
    t.unitTolerance_nonneg, t.unitTolerance_lt⟩

/-- A bar that is measured and turned into tokens is done. -/
lemma tokenize_eq {s measured s' : Slot Rat}
    (hquantize : s.quantize (p.measure t.length t.search) = .ok measured)
    (hgroup : measured.group p.policy.chordMode = .ok s') : p.tokenize t.length s = .ok s' := by
  rw [VoicePlan.tokenize, t.search_eq s]
  simp only [bind, Except.bind, hquantize, Except.mapError, hgroup]

/-- What is heard of the events is cut into bars, and the bars are turned into tokens. -/
lemma build_eq (events : List (Event Rat)) : p.build events =
    (t.grid.cut (Event.audible t.epsilon events)).mapM (p.tokenize t.length) := by
  have hepsilon : p.restEpsilon events = .ok t.epsilon := by
    rw [VoicePlan.restEpsilon, t.restEpsilon_eq]
    rfl
  have htolerance : p.tolerance t.length = .ok t.tolerance := by
    rw [VoicePlan.tolerance, t.tolerance_eq]
    rfl
  have hsegment : (p.grid t.length t.tolerance).segment (Event.audible t.epsilon events) =
      .ok (t.grid.cut (Event.audible t.epsilon events)) := Grid.segment_eq t.steps.usable _
  rw [VoicePlan.build, t.barLength_eq]
  simp only [bind, Except.bind, hepsilon, htolerance, hsegment, Except.mapError]

section Layers

variable {events written : List (Event Rat)} {count : Nat}
  (hcut : t.grid.cut (Event.audible t.epsilon events) =
    (List.range count).map (t.grid.markedBar written))
  (hlayers : Grid.Layers (count * t.length) written) (hne : written ≠ [])
  (hfits : ∀ e ∈ written, e.Fits t.step)
  (hchorded : ∀ bar < count,
    Slot.Chorded p.policy.chordMode (t.grid.barAt written bar).fragments)

include hcut hlayers hne hfits hchorded

/-- Events in layers that keep to the steps are rendered bar by bar. -/
lemma exists_bars : ∃ bars : Nat → Slot Rat,
    p.build events = .ok ((List.range count).map bars) ∧
      ∀ bar < count, ∃ unit, ∃ divisor : Int,
        Slot.Measures unit t.length (t.grid.barAt written bar).fragments ∧ 0 < divisor ∧
        (∀ x ∈ Slot.line p.policy.chordMode unit (t.grid.barAt written bar).fragments,
          divisor ∣ x.units) ∧
        bars bar = (t.grid.markedBar written bar).rendered p.policy.chordMode unit t.length
          divisor := by
  rw [t.build_eq, hcut, List.mapM_map]
  have hbar : ∀ bar ∈ List.range count, ∃ s', p.tokenize t.length (t.grid.markedBar written bar) =
      .ok s' ∧ ∃ unit, ∃ divisor : Int,
        Slot.Measures unit t.length (t.grid.barAt written bar).fragments ∧ 0 < divisor ∧
        (∀ x ∈ Slot.line p.policy.chordMode unit (t.grid.barAt written bar).fragments,
          divisor ∣ x.units) ∧
        s' = (t.grid.markedBar written bar).rendered p.policy.chordMode unit t.length divisor := by
    intro bar hmem
    have hlt := List.mem_range.mp hmem
    have hlayered : Slot.Layered t.grid.length (t.grid.markedBar written bar).fragments :=
      Grid.layered_barAt t.steps.length_pos hlayers hne hlt
    obtain ⟨measured, unit, divisor, hmeasures, hdivisor, hdvd, hquantize, hgroup⟩ :=
      Slot.exists_rendered t.resolves hlayered (fun f hf => Grid.isWhole_barAt t.steps hfits hf)
        (hchorded bar hlt)
    exact ⟨_, t.tokenize_eq hquantize hgroup, unit, divisor, hmeasures, hdivisor, hdvd, rfl⟩
  have hnonempty : Nonempty (Slot Rat) := ⟨{ index := 0, unit := 0 }⟩
  obtain ⟨bars, hbars, hrendered⟩ := exists_mapM_eq_ok hbar
  exact ⟨bars, hbars, fun bar hlt => hrendered bar (List.mem_range.mpr hlt)⟩

/-- Events in layers that keep to the steps are converted, and the bars perform them. What sounds of
a bar of a single layer is what was written. -/
theorem exists_performance : ∃ bars : Nat → Slot Rat,
    p.build events = .ok ((List.range count).map bars) ∧
      Slot.Performs t.length written ((List.range count).map bars) ∧
      (p.policy.chordMode = .timing → ∀ bar < count,
        Tiles Fragment.offset Fragment.stop 0 (t.grid.barAt written bar).fragments t.length →
        ((bars bar).played t.length).filterMap Played.tone? =
          (t.grid.barAt written bar).fragments.filterMap (Fragment.tone? (bar * t.length))) := by
  obtain ⟨bars, hbuild, hbars⟩ := t.exists_bars hcut hlayers hne hfits hchorded
  have hwithin : ∀ e ∈ written, 0 ≤ e.onset ∧ e.onset < e.stop ∧
      e.stop ≤ count * t.grid.length := by
    intro e he
    obtain ⟨layer, hmem, -, htiles⟩ := hlayers e he
    exact htiles.mem hmem
  refine ⟨bars, hbuild, ?_, fun hmode bar hlt htiles => ?_⟩
  · refine Slot.performs_of_renders t.steps.usable hwithin (fun bar hlt => ?_) fun bar hlt => ?_
    · obtain ⟨unit, divisor, -, -, -, heq⟩ := hbars bar hlt
      rw [heq]
      rfl
    · obtain ⟨unit, divisor, hmeasures, hdivisor, hdvd, heq⟩ := hbars bar hlt
      have hlayered : Slot.Layered t.grid.length (t.grid.markedBar written bar).fragments :=
        Grid.layered_barAt t.steps.length_pos hlayers hne hlt
      rw [heq]
      exact Slot.renders_rendered hlayered hmeasures (hchorded bar hlt) hdivisor hdvd
  · obtain ⟨unit, divisor, hmeasures, hdivisor, hdvd, heq⟩ := hbars bar hlt
    rw [hmode] at hdvd heq
    rw [heq]
    exact Slot.tones_rendered t.length_pos htiles hmeasures hdivisor hdvd

end Layers

end ExactTiming

/-! ## The standard settings -/

/-- A conversion with the standard settings, at the tempo and in the meter of a piece that names
none. -/
def VoicePlan.standard (policy : Policy) : VoicePlan Rat :=
  { policy, settings := Settings.standard, header := Header.plain "", pickup := 0 }

/-- The standard settings are exact for all parts of a beat that they allow. -/
def ExactTiming.standard (policy : Policy) (hmode : policy.quantizeMode = .fixed) (parts : Nat)
    (hpos : 0 < parts) (hle : parts ≤ 64) : ExactTiming (VoicePlan.standard policy) :=
  { length := 2000
    epsilon := 10
    tolerance := 1
    unitTolerance := 1 / 100
    maxMultiplier := 64
    parts
    barLength_eq := by
      have htempo : (0 : Rat) < (VoicePlan.standard policy).header.tempo :=
        show (0 : Rat) < 120 by norm_num
      have hfour : (0 : Int) < 4 := by decide
      rw [Header.barLength_eq hfour hfour htempo]
      change Except.ok (((4 : Int) : Rat) * ((4 : Int) / ((4 : Int) : Rat)) * (60000 / 120)) = _
      norm_num
    restEpsilon_eq := rfl
    tolerance_eq := rfl
    quantizeTolerance_eq := rfl
    maxMultiplier_eq := rfl
    mode_eq := hmode
    pickup_eq := rfl
    parts_pos := hpos
    parts_le := by exact_mod_cast hle
    tolerance_nonneg := by norm_num
    tolerance_lt := by
      have hpos' : (0 : Rat) < parts := by exact_mod_cast hpos
      have hle' : (parts : Rat) ≤ 64 := by exact_mod_cast hle
      change (1 : Rat) < 2000 / ((4 : Int) : Rat) / parts
      rw [lt_div_iff₀ hpos']
      norm_num
      linarith
    unitTolerance_nonneg := by norm_num
    unitTolerance_lt := by norm_num }

/-! ## Checks -/

namespace Slot

/-- Bars that are as long as bars and can be written raise no warnings. -/
lemma checkAll_eq {slots : List (Slot Rat)} (hunits : ∀ s ∈ slots, s.units = s.target)
    (hwritable : ∀ s ∈ slots, ∀ tok ∈ s.tokens, tok.IsWritable) (name : String) :
    checkAll name slots = .ok [] := by
  have hcheck : ∀ s ∈ slots, check name s = .ok ((fun _ => []) s) := by
    intro s hs
    have hpitched : Bar.Pitched s.tokens := fun tok htok => (hwritable s hs tok htok).not_mute
    have hlasts : Bar.Lasts s.tokens := fun tok htok => (hwritable s hs tok htok).units_pos
    rw [hpitched.check_eq name, if_pos hlasts]
    simp [hunits s hs]
  rw [checkAll, mapM_eq_ok hcheck]
  simp [bind, Except.bind, pure, Except.pure]

end Slot

end PatternScore
