import PatternScore.Proofs.Bar.Filling
import PatternScore.Proofs.Bar.Grouping
import PatternScore.Proofs.Bar.Rendering
import PatternScore.Proofs.Interval

/-!
# What is missing from a bar

The length that a bar should have is rounded to whole units twice: to the units in which its
fragments are counted, and to those of its tokens, of which each may be several of the others. So a
bar that is too short is told from a full one if half a unit of its tokens or more is missing
(`lt_roundedTarget`), and cannot be told from one if less than a quarter is missing
(`roundedTarget_eq`). If the fragments are counted exactly, as much is missing as no fragment covers
(`Slot.Exact.units_add_total_le`).
-/

namespace PatternScore

/-! ## Rounding twice -/

section Rounding

/-- The full length of a bar in units of `divisor` quanta, rounded to quanta first. -/
def roundedTarget (length quantum : Rat) (divisor : Int) : Int :=
  ⌊(⌊length / quantum + 1 / 2⌋ : Rat) / divisor + 1 / 2⌋

variable {length quantum : Rat} {divisor n : Int}

/-- A bar has no more units than its rounded length if at most half a unit is too much. -/
lemma le_roundedTarget (hquantum : 0 < quantum) (hdivisor : 0 < divisor)
    (h : -(quantum * divisor) ≤ 2 * (length - n * (quantum * divisor))) :
    n ≤ roundedTarget length quantum divisor := by
  have hdivisorRat : (0 : Rat) < divisor := by exact_mod_cast hdivisor
  set count := ⌊length / quantum + 1 / 2⌋ with hcount
  have hexact : ((2 * n * divisor - divisor : Int) : Rat) ≤ 2 * (length / quantum) := by
    rw [← mul_div_assoc, le_div_iff₀ hquantum]
    push_cast
    linarith
  -- Rounding halves up does not fall below a half that is not exceeded.
  have hhalf : 2 * n * divisor - divisor ≤ 2 * count := by
    have hfloor : (2 * n * divisor - divisor + 1) / 2 ≤ count := by
      rw [hcount, Int.le_floor]
      have hdiv : (((2 * n * divisor - divisor + 1) / 2 : Int) : Rat) * 2 ≤
          ((2 * n * divisor - divisor + 1 : Int) : Rat) := by
        exact_mod_cast Int.ediv_mul_le _ (by decide)
      push_cast at hdiv hexact ⊢
      linarith
    omega
  rw [roundedTarget, Int.le_floor, ← hcount]
  have hcast : (2 * n * divisor - divisor : Rat) ≤ 2 * count := by exact_mod_cast hhalf
  have hquotient : (n : Rat) - 1 / 2 ≤ count / divisor := by
    rw [le_div_iff₀ hdivisorRat]
    linarith
  linarith

/-- A bar has fewer units than its rounded length if at least half a unit is missing. -/
lemma lt_roundedTarget (hquantum : 0 < quantum) (hdivisor : 0 < divisor)
    (h : quantum * divisor ≤ 2 * (length - n * (quantum * divisor))) :
    n < roundedTarget length quantum divisor := by
  refine Int.lt_of_add_one_le (le_roundedTarget hquantum hdivisor ?_)
  push_cast
  linarith

/-- A bar has as many units as its rounded length if less than a quarter of a unit is missing and at
most half a unit is too much. -/
lemma roundedTarget_eq (hquantum : 0 < quantum) (hdivisor : 0 < divisor)
    (hlong : -(quantum * divisor) ≤ 2 * (length - n * (quantum * divisor)))
    (hshort : 4 * (length - n * (quantum * divisor)) < quantum * divisor) :
    roundedTarget length quantum divisor = n := by
  refine le_antisymm ?_ (le_roundedTarget hquantum hdivisor hlong)
  have hdivisorRat : (0 : Rat) < divisor := by exact_mod_cast hdivisor
  set count := ⌊length / quantum + 1 / 2⌋ with hcount
  have hexact : 4 * (length / quantum) < ((4 * (n * divisor) + divisor : Int) : Rat) := by
    rw [← mul_div_assoc, div_lt_iff₀ hquantum]
    push_cast
    linarith
  have hfloor : (count : Rat) ≤ length / quantum + 1 / 2 := Int.floor_le _
  have hbelow : 4 * count < 4 * (n * divisor) + divisor + 2 := by
    have hcast : ((4 * count : Int) : Rat) < ((4 * (n * divisor) + divisor + 2 : Int) : Rat) := by
      push_cast at hexact ⊢
      linarith
    exact_mod_cast hcast
  have hhalf : 2 * count < 2 * (n * divisor) + divisor := by omega
  rw [roundedTarget, ← hcount, ← Int.lt_add_one_iff, Int.floor_lt]
  have hcast : (2 * count : Rat) < 2 * (n * divisor) + divisor := by exact_mod_cast hhalf
  have hquotient : (count : Rat) / divisor < n + 1 / 2 := by
    rw [div_lt_iff₀ hdivisorRat]
    linarith
  push_cast
  linarith

end Rounding

/-- The times of some spans are together as long as their units. -/
lemma Span.sum_times (line : List Span) (unit : Rat) :
    (line.map fun x => x.stop * unit - x.start * unit).sum =
      (((line.map (·.units)).sum : Int) : Rat) * unit := by
  induction line with
  | nil => simp
  | cons x rest ih =>
    rw [List.map_cons, List.sum_cons, ih, List.map_cons, List.sum_cons, Span.stop]
    push_cast
    ring

namespace Slot

variable {mode : ChordMode} {s : Slot Rat} {length : Rat}

/-- The length of the units in which the fragments of a bar are counted. -/
def grain (mode : ChordMode) (s : Slot Rat) : Rat :=
  s.unit / s.divisor mode

/-- The tokens of a bar count its line, in units of several grains. -/
structure Tokenized (mode : ChordMode) (length : Rat) (s : Slot Rat) : Prop where
  /-- Its fragments are counted. -/
  counted : s.Counted
  /-- A grain is a length. -/
  grain_pos : 0 < s.grain mode
  /-- A unit is several grains. -/
  unit_eq : s.unit = s.grain mode * s.divisor mode
  /-- The full length is rounded to grains and to units. -/
  target_eq : s.target = roundedTarget length (s.grain mode) (s.divisor mode)
  /-- The units of the tokens are those of the line. -/
  sum_eq : ((s.laid mode).map (·.units)).sum = s.units * s.divisor mode

/-- A bar that is measured and grouped is tokenized. -/
lemma tokenized_of_group {m : Measure Rat} {measured s' : Slot Rat} (hlength : 0 < m.length)
    (hmeasured : s.MeasuredAs m measured) (hcounted : measured.Counted)
    (hgroup : measured.group mode = .ok s') : s'.Tokenized mode m.length := by
  have hlasting := hcounted.lasting mode
  have hdivisorRat : (measured.divisor mode : Rat) ≠ 0 := by exact_mod_cast hlasting.divisor_pos.ne'
  have hunit : 0 < measured.unit := by
    obtain heq | hpos := hmeasured.unit_eq
    · rwa [heq]
    · exact not_le.mp hpos
  have htarget : measured.target = ⌊m.length / measured.unit + 1 / 2⌋ := by
    have hrounded := hmeasured.target_eq
    rw [Scalar.rat_div hunit.ne'] at hrounded
    exact (Except.ok.inj hrounded).symm
  rw [hlasting.group_eq] at hgroup
  obtain rfl := Except.ok.inj hgroup
  -- What the grouping leaves alone decides the line, so the line is that of the measured bar.
  have hgrain : measured.unit * measured.divisor mode / measured.divisor mode = measured.unit :=
    mul_div_cancel_right₀ _ hdivisorRat
  have hpositive : 0 < measured.unit * measured.divisor mode / measured.divisor mode := by
    rwa [hgrain]
  refine ⟨⟨hcounted.ne_nil, hcounted.one_le⟩, hpositive, ?_, ?_, ?_⟩
  · exact congrArg (· * (measured.divisor mode : Rat)) hgrain.symm
  · change ⌊(measured.target : Rat) / measured.divisor mode + 1 / 2⌋ =
      roundedTarget m.length (measured.unit * measured.divisor mode / measured.divisor mode)
        (measured.divisor mode)
    rw [hgrain, roundedTarget, htarget]
  · have hdvd : ∀ x ∈ measured.laid mode, measured.divisor mode ∣ x.units := fun _ => divisor_dvd
    have hsum : measured.divisor mode ∣ ((measured.laid mode).map (·.units)).sum :=
      List.dvd_sum (List.forall_mem_map.mpr hdvd)
    change _ = Bar.units ((measured.laid mode).map fun x =>
      x.token (x.units / measured.divisor mode)) * measured.divisor mode
    rw [Span.units_map_token hdvd, Int.ediv_mul_cancel hsum]
    rfl

namespace Tokenized

variable (h : s.Tokenized mode length)

include h

/-- A bar is reported if half a unit of it or more is missing. -/
lemma units_ne_target (hshort : s.unit ≤ 2 * (length - s.units * s.unit)) :
    s.units ≠ s.target := by
  rw [h.unit_eq] at hshort
  rw [h.target_eq]
  exact (lt_roundedTarget h.grain_pos (h.counted.lasting mode).divisor_pos hshort).ne

/-- A bar is not reported if less than a quarter of a unit is missing and at most half a unit is too
much. -/
lemma units_eq_target (hlong : -s.unit ≤ 2 * (length - s.units * s.unit))
    (hshort : 4 * (length - s.units * s.unit) < s.unit) : s.units = s.target := by
  rw [h.unit_eq] at hlong hshort
  rw [h.target_eq]
  exact (roundedTarget_eq h.grain_pos (h.counted.lasting mode).divisor_pos hlong hshort).symm

end Tokenized

/-! ## Exactly counted bars -/

/-- The fragments of a bar are counted exactly, and those of one chord begin and end together. -/
structure Exact (mode : ChordMode) (s : Slot Rat) : Prop where
  /-- Offsets are counted exactly. -/
  offset_eq : ∀ f ∈ s.fragments, f.offset = f.offsetUnits * s.grain mode
  /-- Durations are counted exactly. -/
  duration_eq : ∀ f ∈ s.fragments, f.duration = f.units * s.grain mode
  /-- Fragments that become one span agree in time. -/
  agree : Span.Agree mode s.fragments

/-- Parts of a bar, apart from each other, that no fragment covers. -/
structure Gaps (length : Rat) (fragments : List (Fragment Rat)) (gaps : List Interval) : Prop where
  /-- They lie in the bar. -/
  within : ∀ x ∈ gaps, 0 ≤ x.start ∧ x.stop ≤ length
  /-- They are apart. -/
  apart : gaps.Pairwise Interval.Apart
  /-- No fragment covers an instant of them. -/
  uncovered : ∀ x ∈ gaps, ∀ time, x.Has time → ∀ f ∈ fragments, ¬ f.Has time

/-- Before the only fragment of a bar there is a gap. -/
lemma gaps_before {f : Fragment Rat} (hlate : 0 < f.offset) (hle : f.offset ≤ length) :
    Gaps length [f] [⟨0, f.offset, hlate⟩] where
  within := List.forall_mem_singleton.mpr ⟨le_rfl, hle⟩
  apart := List.pairwise_singleton _ _
  uncovered := by
    simp only [List.forall_mem_singleton]
    intro time hgap hhas
    exact absurd hgap.2 (not_lt.mpr hhas.1)

/-- What fragments cover lies where they lie. -/
lemma within_of_covered {fragments : List (Fragment Rat)}
    (hwithin : ∀ f ∈ fragments, f.Within length)
    {x : Interval} (hcovered : ∀ time, x.Has time → ∃ f ∈ fragments, f.Has time) :
    0 ≤ x.start ∧ x.stop ≤ length := by
  constructor
  · obtain ⟨f, hf, hhas⟩ := hcovered x.start ⟨le_rfl, x.start_lt_stop⟩
    exact (hwithin f hf).offset_nonneg.trans hhas.1
  · by_contra hlonger
    obtain ⟨f, hf, hhas⟩ := hcovered (max x.start length)
      ⟨le_max_left _ _, max_lt x.start_lt_stop (not_le.mp hlonger)⟩
    exact absurd ((le_max_right _ _).trans_lt hhas.2) (not_lt.mpr (hwithin f hf).stop_le)

namespace Exact

variable (h : s.Exact mode) (hcounted : s.Counted) (hgrain : 0 < s.grain mode)
  (hwithin : ∀ f ∈ s.fragments, f.Within length)

include h hcounted hgrain hwithin

/-- The layout says of the bar what it says of any spans. -/
lemma laidOut : Span.LaidOut (Span.collect mode s.fragments) (s.laid mode) := by
  have hcollected := Span.collected_collect h.agree
  have hinOrder := Span.inOrder_collect mode hcounted.one_le
  refine hinOrder.laidOut_layOut fun x hx => ?_
  obtain ⟨f, hf, hmatches⟩ := hcollected.of_mem x hx
  have hoffset := (hwithin f hf).offset_nonneg
  rw [h.offset_eq f hf] at hoffset
  rw [hmatches.start_eq]
  exact_mod_cast nonneg_of_mul_nonneg_left hoffset hgrain

/-- Where the line has a span, the bar has a fragment. -/
lemma exists_has {x : Span} (hx : x ∈ s.laid mode) {time : Rat}
    (hstart : x.start * s.grain mode ≤ time) (hstop : time < x.stop * s.grain mode) :
    ∃ f ∈ s.fragments, f.Has time := by
  have hhas : x.Has ⌊time / s.grain mode⌋ := (Span.has_floor_iff hgrain).mpr ⟨hstart, hstop⟩
  obtain ⟨y, hy, hhas⟩ := (h.laidOut hcounted hgrain hwithin).exists_has hx hhas
  obtain ⟨f, hf, hmatches⟩ := (Span.collected_collect h.agree).of_mem y hy
  rw [Span.has_floor_iff hgrain, Span.stop, hmatches.start_eq, hmatches.units_eq, Int.cast_add,
    add_mul, ← h.offset_eq f hf, ← h.duration_eq f hf] at hhas
  exact ⟨f, hf, hhas⟩

/-- The times of the spans, which follow each other in the bar where fragments are. -/
lemma exists_times : ∃ times : List Interval,
    Interval.total times = ((((s.laid mode).map (·.units)).sum : Int) : Rat) * s.grain mode ∧
      times.Pairwise Interval.Apart ∧
      ∀ x ∈ times, ∀ time, x.Has time → ∃ f ∈ s.fragments, f.Has time := by
  have hlaid := h.laidOut hcounted hgrain hwithin
  have hlasts : ∀ x ∈ s.laid mode, x.start * s.grain mode < x.stop * s.grain mode := by
    intro x hx
    have hlt : (x.start : Rat) < x.stop := by exact_mod_cast hlaid.lasting x hx
    exact mul_lt_mul_of_pos_right hlt hgrain
  refine ⟨(s.laid mode).pmap
    (fun x hx => ⟨x.start * s.grain mode, x.stop * s.grain mode, hx⟩) hlasts, ?_, ?_, ?_⟩
  · have hlengths : (s.laid mode).pmap
        (fun x _ => (x.stop : Rat) * s.grain mode - x.start * s.grain mode) hlasts =
        (s.laid mode).map fun x => x.stop * s.grain mode - x.start * s.grain mode :=
      List.pmap_eq_map hlasts
    rw [Interval.total, List.map_pmap, ← Span.sum_times, ← hlengths]
  · refine hlaid.ordered.pmap hlasts fun x _ y _ hle time hin hin' => ?_
    have hbehind : (x.stop : Rat) * s.grain mode ≤ y.start * s.grain mode := by
      have hcast : (x.stop : Rat) ≤ y.start := by exact_mod_cast hle
      gcongr
    exact absurd (hin.2.trans_le hbehind) (not_lt.mpr hin'.1)
  · intro x hx time hhas
    obtain ⟨y, hy, rfl⟩ := List.mem_pmap.mp hx
    exact h.exists_has hcounted hgrain hwithin hy hhas.1 hhas.2

/-- The spans of the line and the gaps share the bar among them. -/
theorem units_add_total_le {gaps : List Interval} (hgaps : Gaps length s.fragments gaps) :
    ((((s.laid mode).map (·.units)).sum : Int) : Rat) * s.grain mode + Interval.total gaps ≤
      length := by
  obtain ⟨times, htotal, hapart, hcovered⟩ := h.exists_times hcounted hgrain hwithin
  have hall : (times ++ gaps).Pairwise Interval.Apart := by
    refine List.pairwise_append.mpr ⟨hapart, hgaps.apart, fun x hx y hy time hhas hgap => ?_⟩
    obtain ⟨f, hf, hhas⟩ := hcovered x hx time hhas
    exact hgaps.uncovered y hy time hgap f hf hhas
  have hinside : ∀ x ∈ times ++ gaps, 0 ≤ x.start ∧ x.stop ≤ length := by
    intro x hx
    obtain hx | hx := List.mem_append.mp hx
    · exact within_of_covered hwithin (hcovered x hx)
    · exact hgaps.within x hx
  have hlength : 0 ≤ length := by
    obtain ⟨f, hf⟩ := List.exists_mem_of_ne_nil _ hcounted.ne_nil
    obtain ⟨hoffset, hduration, hstop⟩ := hwithin f hf
    exact (add_pos_of_nonneg_of_pos hoffset hduration).le.trans hstop
  have hle := Interval.total_le hall hinside hlength
  rwa [Interval.total_append, htotal, sub_zero] at hle

end Exact

/-- Where the fragments are counted exactly, the tokens miss as much as no fragment covers. -/
theorem Exact.total_le_missing (h : s.Exact mode) (htokenized : s.Tokenized mode length)
    (hwithin : ∀ f ∈ s.fragments, f.Within length) {gaps : List Interval}
    (hgaps : Gaps length s.fragments gaps) :
    Interval.total gaps ≤ length - s.units * s.unit := by
  have hle := h.units_add_total_le htokenized.counted htokenized.grain_pos hwithin hgaps
  have hunits : (s.units : Rat) * s.unit =
      ((((s.laid mode).map (·.units)).sum : Int) : Rat) * s.grain mode := by
    rw [htokenized.unit_eq, htokenized.sum_eq, Int.cast_mul]
    ring
  linarith

end Slot

end PatternScore
