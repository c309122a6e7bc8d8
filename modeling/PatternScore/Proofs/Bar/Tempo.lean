import PatternScore.Proofs.Bar.Grouping
import PatternScore.Proofs.Bar.Measurable

/-!
# Bars in another tempo

The tempo of a piece stretches the durations and offsets of a bar and the bar itself by one factor.
Measuring only looks at quotients: the minimal way at those of durations by the shortest one
(`Units.ofDurations_scale`), the fixed way at those by the beat (`Units.ofBeats_scale`). So the
counts stay, the unit is stretched by the factor, and the layout, which knows nothing but counts,
gives the same tokens (`Slot.quantize_group_scale`). That every duration counts as taking time, in
both tempi, is needed: what is shorter than the least time that counts is not measured.
-/

namespace PatternScore

/-! ## Times in another tempo -/

/-- A fragment whose times are multiplied by a factor. -/
def Fragment.scale (c : Rat) (f : Fragment Rat) : Fragment Rat :=
  { f with offset := c * f.offset, duration := c * f.duration }

namespace Slot

/-- A bar whose times are multiplied by a factor, that of a unit as well. -/
def scale (c : Rat) (s : Slot Rat) : Slot Rat :=
  { s with fragments := s.fragments.map (Fragment.scale c), unit := c * s.unit }

/-- Measuring in bars whose length is multiplied by a factor. -/
def Measure.scale (c : Rat) (m : Measure Rat) : Measure Rat :=
  { m with length := c * m.length }

end Slot

namespace Scalar

variable {c x y q : Rat}

/-- A quotient of times does not depend on the tempo. -/
lemma div_scale (hc : c ≠ 0) (x y : Rat) : Scalar.div (c * x) (c * y) = Scalar.div x y := by
  by_cases hy : y = 0
  · rw [hy, mul_zero]
    rfl
  · rw [rat_div hy, rat_div (mul_ne_zero hc hy), mul_div_mul_left x y hc]

/-- A part of a time is multiplied with it. -/
lemma div_scale_left (c : Rat) (h : Scalar.div x y = .ok q) :
    Scalar.div (c * x) y = .ok (c * q) := by
  by_cases hy : y = 0
  · rw [hy] at h
    cases h
  · rw [rat_div hy] at h ⊢
    obtain rfl := Except.ok.inj h
    rw [mul_div_assoc]

end Scalar

/-! ## Units in another tempo -/

namespace Units

variable {search : UnitSearch Rat} {tolerance step d c minimum minimum' unit length : Rat}
  {durations offsets : List Rat} {splits units : List Int} {j k beats : Int}

/-- How near a duration is to a whole number of steps is a matter of proportion. -/
lemma near_scale_iff (hc : 0 < c) : Near tolerance (c * step) (c * d) ↔ Near tolerance step d := by
  refine exists_congr fun n => ?_
  have herror : c * d - n * (c * step) = c * (d - n * step) := by ring
  rw [herror, abs_mul, abs_of_pos hc, mul_left_comm, mul_le_mul_iff_right₀ hc]

/-- The same splits fit. -/
lemma fitting_scale (hc : 0 < c) :
    fitting search (c * minimum) (durations.map (c * ·)) splits =
      fitting search minimum durations splits := by
  refine Set.ext fun k => and_congr_right' (and_congr_right' ?_)
  rw [List.forall_mem_map, mul_div_assoc]
  exact forall₂_congr fun d _ => near_scale_iff hc

/-- Where every duration takes time, none is left out. -/
lemma lasting_eq_self (hlong : ∀ d ∈ durations, 1 / 1000000000 < d) :
    lasting durations = durations :=
  List.filter_eq_self.mpr fun d hd => decide_eq_true (hlong d hd)

/-- The shortest duration and its split are determined. -/
lemma Splits.unique (h : Splits search durations minimum k)
    (h' : Splits search durations minimum' j) : minimum' = minimum ∧ j = k := by
  obtain rfl : minimum' = minimum := h'.isLeast.unique h.isLeast
  refine ⟨rfl, ?_⟩
  rcases h.split with hk | ⟨hnone, rfl⟩
  · rcases h'.split with hj | ⟨hnone, rfl⟩
    · exact hj.unique hk
    · rw [hnone] at hk
      exact absurd hk.1 (Set.notMem_empty _)
  · rcases h'.split with hj | ⟨-, rfl⟩
    · rw [hnone] at hj
      exact absurd hj.1 (Set.notMem_empty _)
    · rfl

/-- The shortest duration is the same one in another tempo, and split in the same way. -/
lemma Splits.scale (h : Splits search durations minimum k) (hc : 0 < c)
    (hlong : ∀ d ∈ durations, 1 / 1000000000 < d)
    (hscaled : ∀ d ∈ durations, 1 / 1000000000 < c * d) :
    Splits search (durations.map (c * ·)) (c * minimum) k := by
  have hlasting := lasting_eq_self hlong
  have hlasting' := lasting_eq_self (List.forall_mem_map.mpr hscaled)
  obtain ⟨hleast, hpos, hsplit⟩ := h
  rw [hlasting] at hleast hsplit
  refine ⟨?_, hpos, ?_⟩
  · rw [hlasting']
    refine ⟨List.mem_map_of_mem hleast.1, List.forall_mem_map.mpr fun d hd => ?_⟩
    exact mul_le_mul_of_nonneg_left (hleast.2 hd) hc.le
  · rw [hlasting', fitting_scale hc]
    exact hsplit

/-- A duration that takes time in both tempi has as many parts in both. -/
lemma nearestCount_scale (hc : 0 < c) (hlong : 1 / 1000000000 < d)
    (hscaled : 1 / 1000000000 < c * d) (part : Rat) :
    nearestCount (c * part) (c * d) = nearestCount part d := by
  rw [nearestCount, nearestCount, if_pos hlong, if_pos hscaled, mul_div_mul_left d part hc.ne']

/-- The minimal way counts alike in every tempo in which all durations take time. -/
lemma ofDurations_scale (hc : 0 < c) (hlong : ∀ d ∈ durations, 1 / 1000000000 < d)
    (hscaled : ∀ d ∈ durations, 1 / 1000000000 < c * d)
    (h : ofDurations search durations = .ok (units, unit)) :
    ofDurations search (durations.map (c * ·)) = .ok (units, c * unit) := by
  have hlasting := lasting_eq_self hlong
  have hlasting' := lasting_eq_self (List.forall_mem_map.mpr hscaled)
  by_cases hne : durations = []
  · subst hne
    obtain ⟨rfl, rfl⟩ := Prod.mk.inj (Except.ok.inj
      ((ofDurations_of_lasting_eq_nil search rfl).symm.trans h))
    rw [mul_zero]
    exact ofDurations_of_lasting_eq_nil search rfl
  · obtain ⟨minimum, k, hsplits, heq⟩ := exists_splits_counts search (hlasting ▸ hne)
    have hne' : lasting (durations.map (c * ·)) ≠ [] := by
      rw [hlasting']
      simpa using hne
    obtain ⟨minimum', k', hsplits', heq'⟩ := exists_splits_counts search hne'
    obtain ⟨hminimum, hk⟩ := (hsplits.scale hc hlong hscaled).unique hsplits'
    obtain ⟨rfl, rfl⟩ := Prod.mk.inj (Except.ok.inj (heq.symm.trans h))
    rw [heq', hminimum, hk, mul_div_assoc, List.map_map]
    refine congrArg (fun counts => Except.ok (counts, c * (minimum / k))) ?_
    exact List.map_congr_left fun d hd => nearestCount_scale hc (hlong d hd) (hscaled d hd) _

/-- Quotients of times by the beat do not depend on the tempo. -/
lemma mapM_div_scale (hc : c ≠ 0) (times : List Rat) (beat : Rat) :
    (times.map (c * ·)).mapM (Scalar.div · (c * beat)) = times.mapM (Scalar.div · beat) := by
  rw [List.mapM_map]
  simp only [Function.comp_def, Scalar.div_scale hc]

/-- The fixed way counts alike in every tempo. -/
lemma ofBeats_scale (hc : c ≠ 0)
    (h : ofBeats search length beats durations offsets = .ok (units, unit)) :
    ofBeats search (c * length) beats (durations.map (c * ·)) (offsets.map (c * ·)) =
      .ok (units, c * unit) := by
  obtain ⟨beat, lengths, starts, multiplier, counts, part, hbeat, hlengths, hstarts, hmultiplier,
    hcounts, hpart, rfl, rfl⟩ := ofBeats_eq_ok_iff.mp h
  refine ofBeats_eq_ok_iff.mpr ⟨c * beat, lengths, starts, multiplier, counts, c * part,
    Scalar.div_scale_left c hbeat, ?_, ?_, hmultiplier, hcounts, Scalar.div_scale_left c hpart, rfl,
    (mul_assoc _ _ _).symm⟩
  · rwa [mapM_div_scale hc]
  · rwa [mapM_div_scale hc]

end Units

namespace Slot

variable {m : Measure Rat} {s measured g : Slot Rat} {fragments : List (Fragment Rat)}
  {units : List Int} {unit c : Rat} {mode : ChordMode}

/-- A unit that is no length is replaced by the bar in every tempo. -/
lemma unit_scale (hc : 0 < c) (length unit : Rat) :
    (if c * unit ≤ Scalar.zero then c * length else c * unit) =
      c * (if unit ≤ Scalar.zero then length else unit) := by
  have hiff : c * unit ≤ Scalar.zero ↔ unit ≤ Scalar.zero := by
    show c * unit ≤ 0 ↔ unit ≤ 0
    constructor
    · exact fun h => nonpos_of_mul_nonpos_right h hc
    · exact fun h => mul_nonpos_of_nonneg_of_nonpos hc.le h
  simp only [hiff, mul_ite]

/-- The units of fragments do not depend on the tempo. -/
lemma findUnits_scale (hc : 0 < c) (hlong : ∀ f ∈ fragments, 1 / 1000000000 < f.duration)
    (hscaled : ∀ f ∈ fragments, 1 / 1000000000 < c * f.duration)
    (h : findUnits m fragments = .ok (units, unit)) :
    findUnits (m.scale c) (fragments.map (Fragment.scale c)) = .ok (units, c * unit) := by
  have hdurations : (fragments.map (Fragment.scale c)).map (·.duration) =
      (fragments.map (·.duration)).map (c * ·) := by
    rw [List.map_map, List.map_map]
    rfl
  have hoffsets : (fragments.map (Fragment.scale c)).map (·.offset) =
      (fragments.map (·.offset)).map (c * ·) := by
    rw [List.map_map, List.map_map]
    rfl
  have hmode : (m.scale c).mode = m.mode := rfl
  have hlength : (m.scale c).length = c * m.length := rfl
  unfold findUnits at h ⊢
  rw [hdurations, hoffsets, hmode, hlength]
  cases hway : m.mode with
  | minimal =>
    rw [hway] at h
    obtain ⟨⟨units', unit'⟩, hfound, h⟩ := exists_of_bind_eq_ok h
    have hfound' := Units.ofDurations_scale hc (List.forall_mem_map.mpr hlong)
      (List.forall_mem_map.mpr hscaled) hfound
    obtain ⟨rfl, rfl⟩ := Prod.mk.inj (Except.ok.inj h)
    have hsearch : (m.scale c).search = m.search := rfl
    simp only [hsearch, hfound', bind, Except.bind, unit_scale hc]
    rfl
  | fixed =>
    rw [hway] at h
    obtain ⟨⟨units', unit'⟩, hfound, h⟩ := exists_of_bind_eq_ok h
    have hfound' := Units.ofBeats_scale hc.ne' hfound
    obtain ⟨rfl, rfl⟩ := Prod.mk.inj (Except.ok.inj h)
    have hsearch : (m.scale c).search = m.search := rfl
    have hbeats : (m.scale c).beats = m.beats := rfl
    simp only [hsearch, hbeats, hfound', bind, Except.bind, unit_scale hc]
    rfl

/-- Fragments get their units in every tempo. -/
lemma Assigned.scale {f f' : Fragment Rat} (hc : c ≠ 0) (h : Assigned unit f f') :
    Assigned (c * unit) (f.scale c) (f'.scale c) where
  same := by
    rw [h.same]
    rfl
  offset_eq := by
    have hoffset := h.offset_eq
    rwa [← Scalar.div_scale hc] at hoffset

/-- A bar is measured alike in every tempo in which all its fragments take time. -/
lemma quantize_scale (hc : 0 < c) (hne : s.fragments ≠ [])
    (hlong : ∀ f ∈ s.fragments, 1 / 1000000000 < f.duration)
    (hscaled : ∀ f ∈ s.fragments, 1 / 1000000000 < c * f.duration)
    (h : s.quantize m = .ok measured) :
    { s with fragments := s.fragments.map (Fragment.scale c) }.quantize (m.scale c) =
      .ok (measured.scale c) := by
  obtain ⟨done, unit, target, hfound, hassigned, htarget, rfl⟩ := (quantize_eq_ok_iff hne).mp h
  have hne' : s.fragments.map (Fragment.scale c) ≠ [] := by simpa using hne
  refine (quantize_eq_ok_iff hne').mpr
    ⟨done.map (Fragment.scale c), c * unit, target, ?_, ?_, ?_, rfl⟩
  · rw [List.map_map]
    exact findUnits_scale hc hlong hscaled hfound
  · rw [List.forall₂_map_left_iff, List.forall₂_map_right_iff]
    exact hassigned.imp fun _ _ hf => hf.scale hc.ne'
  · rwa [← Scalar.div_scale hc.ne'] at htarget

/-- What a bar is laid out as does not depend on the tempo. -/
lemma laid_scale (c : Rat) (s : Slot Rat) (mode : ChordMode) :
    (s.scale c).laid mode = s.laid mode :=
  congrArg Span.layOut (Span.collect_map (g := Fragment.scale c) (fun _ => rfl) (fun _ => rfl)
    (fun _ => rfl) (fun _ => rfl) s.fragments)

/-- A bar whose spans last becomes the same tokens in every tempo. -/
lemma Lasting.group_scale (h : s.Lasting mode) (c : Rat) :
    ∃ g, s.group mode = .ok g ∧ (s.scale c).group mode = .ok (g.scale c) := by
  have hlaid := laid_scale c s mode
  have hscaled : (s.scale c).Lasting mode :=
    ⟨hlaid.symm ▸ h.ne_nil, hlaid.symm ▸ h.units_pos⟩
  have hdivisor : (s.scale c).divisor mode = s.divisor mode := by rw [divisor, hlaid, divisor]
  have hunit : (s.scale c).unit * s.divisor mode = c * (s.unit * s.divisor mode) :=
    mul_assoc _ _ _
  refine ⟨_, h.group_eq, ?_⟩
  rw [hscaled.group_eq, hlaid, hdivisor, hunit]
  rfl

/-- The tempo does not matter to a bar in which everything takes time. In another tempo the
fragments have the same units and offsets in units, the bar has the same full length and becomes the
same tokens, and its unit is multiplied by the factor. Only if no multiplier is allowed the fixed
way has no answer, in any tempo. -/
theorem quantize_group_scale {c : Rat} (hc : 0 < c) (hlength : 0 < m.length)
    (hbeats : 1 ≤ m.beats) (hne : s.fragments ≠ [])
    (hlong : ∀ f ∈ s.fragments, 1 / 1000000000 < f.duration)
    (hscaled : ∀ f ∈ s.fragments, 1 / 1000000000 < c * f.duration) (mode : ChordMode) :
    (∃ measured g, s.quantize m = .ok measured ∧ measured.group mode = .ok g ∧
      { s with fragments := s.fragments.map (Fragment.scale c) }.quantize (m.scale c) =
        .ok (measured.scale c) ∧
      (measured.scale c).group mode = .ok (g.scale c)) ∨
    m.mode = .fixed ∧ m.search.maxMultiplier = 0 ∧
      s.quantize m = .error ⟨.divisionByZero, s⟩ ∧
      { s with fragments := s.fragments.map (Fragment.scale c) }.quantize (m.scale c) =
        .error ⟨.divisionByZero, { s with fragments := s.fragments.map (Fragment.scale c) }⟩ := by
  have hbeatsNe : m.beats ≠ 0 := by omega
  by_cases h : m.mode = .fixed → m.search.maxMultiplier ≠ 0
  · obtain ⟨measured, hmeasured⟩ := exists_quantize_eq_ok hlength hbeatsNe h s
    have hcounted := (measuredAs_quantize hmeasured hne).counted hne
    obtain ⟨g, hgroup, hgroup'⟩ := (hcounted.lasting mode).group_scale c
    exact .inl ⟨measured, g, hmeasured, hgroup, quantize_scale hc hne hlong hscaled hmeasured,
      hgroup'⟩
  · rw [Classical.not_imp, not_not] at h
    obtain ⟨hmode, hmost⟩ := h
    have hlength' : 0 < (m.scale c).length := mul_pos hc hlength
    have hne' : s.fragments.map (Fragment.scale c) ≠ [] := by simpa using hne
    exact .inr ⟨hmode, hmost, quantize_eq_error hlength hbeatsNe hmode hmost hne,
      quantize_eq_error hlength' hbeatsNe hmode hmost hne'⟩

/-- A beat in the proportion of two to one, and three beats of rest. -/
def swung : Slot Rat where
  index := 0
  fragments := [
    { offset := 0, duration := 1000 / 3, pitch := some 0 },
    { offset := 1000 / 3, duration := 500 / 3, pitch := some 2 },
    { offset := 500, duration := 1500 }]
  unit := 0

/-- The bar in thirds of a beat. -/
def swungUnits : Slot Rat where
  index := 0
  fragments := [
    { offset := 0, duration := 1000 / 3, pitch := some 0, units := 2 },
    { offset := 1000 / 3, duration := 500 / 3, pitch := some 2, units := 1, offsetUnits := 2 },
    { offset := 500, duration := 1500, units := 9, offsetUnits := 3 }]
  unit := 500 / 3
  target := 12

/-- In bars of three seconds it is measured in thirds of a longer beat. -/
theorem quantize_group_scale_swung :
    (0 : Rat) < 3 / 2 ∧ 0 < fourBeats.length ∧ 1 ≤ fourBeats.beats ∧ swung.fragments ≠ [] ∧
    (∀ f ∈ swung.fragments, 1 / 1000000000 < f.duration) ∧
    (∀ f ∈ swung.fragments, 1 / 1000000000 < 3 / 2 * f.duration) ∧
    swung.quantize fourBeats = .ok swungUnits ∧
    { swung with fragments := swung.fragments.map (Fragment.scale (3 / 2)) }.quantize
      (fourBeats.scale (3 / 2)) = .ok (swungUnits.scale (3 / 2)) ∧
    ∃ g, swungUnits.group .timing = .ok g ∧
      (swungUnits.scale (3 / 2)).group .timing = .ok (g.scale (3 / 2)) := by
  have hc : (0 : Rat) < 3 / 2 := by norm_num
  have hlength : 0 < fourBeats.length := by norm_num [fourBeats]
  have hbeats : 1 ≤ fourBeats.beats := by decide
  have hne : swung.fragments ≠ [] := List.cons_ne_nil _ _
  have hlong : ∀ f ∈ swung.fragments, 1 / 1000000000 < f.duration := by
    norm_num [swung]
  have hscaled : ∀ f ∈ swung.fragments, 1 / 1000000000 < 3 / 2 * f.duration := by
    norm_num [swung]
  have hquantize : swung.quantize fourBeats = .ok swungUnits := by cbv
  refine ⟨hc, hlength, hbeats, hne, hlong, hscaled, hquantize, ?_⟩
  rcases quantize_group_scale hc hlength hbeats hne hlong hscaled .timing with
    ⟨measured, g, hmeasured, hgroup, hquantize', hgroup'⟩ | ⟨-, hmost, -⟩
  · obtain rfl := Except.ok.inj (hmeasured.symm.trans hquantize)
    exact ⟨hquantize', g, hgroup, hgroup'⟩
  · exact absurd hmost (by decide)

end Slot

end PatternScore
