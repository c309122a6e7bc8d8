import Mathlib
import PatternScore.Proofs.Bar.Shortfall
import PatternScore.Proofs.Conversion.Bars

/-!
# Which bars are reported as too short

A bar that is built is compared with the length of a bar in its own units. It is reported if half a
unit or more is missing, and it is not if less than a quarter is. A unit can be longer than a beat:
a bar with one note in it has the note as its unit. So a bar in which a beat is covered by nothing
is reported if its fragments are counted exactly and its unit is no longer than two beats
(`VoicePlan.build_reports_gaps`), and need not be reported otherwise
(`VoicePlan.not_forall_gap_reported`).
-/

namespace PatternScore.VoicePlan

variable {p : VoicePlan Rat} {length : Rat} {s s' : Slot Rat}

/-- A bar that has gone through the stages is tokenized. -/
lemma Stages.tokenized (h : p.Stages length s s') (hlength : 0 < length) :
    s'.Tokenized p.policy.chordMode length := by
  obtain ⟨search, measured, hmeasured, hcounted, hgroup⟩ := h
  exact Slot.tokenized_of_group hlength hmeasured hcounted hgroup

/-- Its fragments lie where they were cut. -/
lemma Stages.within (h : p.Stages length s s') (hwithin : ∀ f ∈ s.fragments, f.Within length) :
    ∀ f ∈ s'.fragments, f.Within length := by
  obtain ⟨search, measured, hmeasured, hcounted, hgroup⟩ := h
  rw [(Slot.groupedAs_group hcounted hgroup).fragments_eq]
  intro f' hf'
  obtain ⟨f, hf, hsame⟩ := exists_mem_of_forall₂ hmeasured.fragments hf'
  obtain ⟨hoffset, hduration, hstop⟩ := hwithin f hf
  refine ⟨hsame.offset_eq ▸ hoffset, hsame.duration_eq ▸ hduration, ?_⟩
  rwa [Fragment.stop, hsame.offset_eq, hsame.duration_eq]

/-- Whatever events a voice is built from, a bar that is no upbeat is reported as too short if half
a unit of it or more is missing from its tokens, and it is not if less than a quarter is. If its
fragments are counted exactly, it is reported if no fragment covers half a unit or more of it. -/
theorem build_reports_gaps {events : List (Event Rat)} {slots : List (Slot Rat)}
    (hbuild : p.build events = .ok slots) (hlength : p.header.barLength = .ok length)
    (hs : s ∈ slots) (hpickup : s.pickup = false) (name : String) :
    (s.unit ≤ 2 * (length - s.units * s.unit) → s.check name = .ok [s.wrongLength name]) ∧
    (-s.unit ≤ 2 * (length - s.units * s.unit) → 4 * (length - s.units * s.unit) < s.unit →
      s.check name = .ok []) ∧
    (s.Exact p.policy.chordMode → ∀ gaps, Slot.Gaps length s.fragments gaps →
      s.unit ≤ 2 * Interval.total gaps → s.check name = .ok [s.wrongLength name]) := by
  obtain ⟨length', cut, hlength', hpositive, hfilled, hstages⟩ :=
    exists_stages hbuild (P := fun length => Fragment.Within length) fun length tolerance hl ht =>
      Grid.makes_within (not_le.mp hl) (not_lt.mp ht)
  obtain rfl : length' = length := Except.ok.inj (hlength'.symm.trans hlength)
  obtain ⟨s₀, hs₀, hstage⟩ := exists_mem_of_forall₂ hstages hs
  have htokenized := hstage.tokenized (not_le.mp hpositive)
  have hcheck := hstage.wellFormed.check_eq name
  rw [hpickup, Bool.false_or] at hcheck
  have hreported (hshort : s.unit ≤ 2 * (length' - s.units * s.unit)) :
      s.check name = .ok [s.wrongLength name] := by
    rw [hcheck, if_neg (by simpa using htokenized.units_ne_target hshort)]
  refine ⟨hreported, fun hlong hshort => ?_, fun hexact gaps hgaps htotal => hreported ?_⟩
  · rw [hcheck, if_pos (by simpa using htokenized.units_eq_target hlong hshort)]
  · have hwithin := hstage.within (hfilled.all s₀ hs₀ (hstage.pickup_eq ▸ hpickup))
    have hmissing := hexact.total_le_missing htokenized hwithin hgaps
    linarith

/-- A note in the second half of a bar, whose first half is covered by nothing. -/
theorem build_reports_gaps_half :
    ∃ s : Slot Rat, (VoicePlan.standard { fillGaps := false }).build
        [{ onset := 1000, duration := 1000, pitch := some 0 }] = .ok [s] ∧
      Slot.Gaps 2000 s.fragments [⟨0, 1000, by norm_num⟩] ∧
      ∀ name, s.check name = .ok [s.wrongLength name] := by
  have hbuild : (VoicePlan.standard { fillGaps := false }).build
      [{ onset := 1000, duration := 1000, pitch := some 0 }] =
      .ok [{ index := 0
             fragments := [{ offset := 1000, duration := 1000, pitch := some 0, units := 1
                             offsetUnits := 1 }]
             tokens := [.note [0] 1], unit := 1000, target := 2 }] := by
    cbv
  have hlength : (VoicePlan.standard { fillGaps := false }).header.barLength = .ok 2000 := by
    cbv
  have hgaps : Slot.Gaps 2000 [({ offset := 1000, duration := 1000, pitch := some 0, units := 1
                                  offsetUnits := 1 } : Fragment Rat)]
      [⟨0, 1000, by norm_num⟩] :=
    Slot.gaps_before (by norm_num) (by norm_num)
  refine ⟨_, hbuild, hgaps, fun name => ?_⟩
  refine (build_reports_gaps hbuild hlength List.mem_cons_self rfl name).2.2 ?_ _ hgaps ?_
  · refine ⟨?_, ?_, Span.agree_timing _⟩
    · simp only [List.forall_mem_singleton]
      cbv
    · simp only [List.forall_mem_singleton]
      cbv
  · norm_num [Interval.total]

/-- A bar whose first beat is covered by nothing need not be reported: the one note that it holds is
its unit, and the bar is one unit and a third. -/
theorem not_forall_gap_reported :
    ¬ ∀ (p : VoicePlan Rat) (events : List (Event Rat)) (length : Rat) (slots : List (Slot Rat)),
      p.policy.fillGaps = false → p.settings = Settings.standard →
      p.header.barLength = .ok length → p.build events = .ok slots →
      ∀ s ∈ slots, s.pickup = false → ∀ gaps, Slot.Gaps length s.fragments gaps →
        length / p.header.numerator ≤ Interval.total gaps →
        ∀ name, ∃ warnings, s.check name = .ok warnings ∧ s.wrongLength name ∈ warnings := by
  intro hall
  have hbuild : (VoicePlan.standard { fillGaps := false }).build
      [{ onset := 500, duration := 1500, pitch := some 0 }] =
      .ok [{ index := 0
             fragments := [{ offset := 500, duration := 1500, pitch := some 0, units := 1 }]
             tokens := [.note [0] 1], unit := 1500, target := 1 }] := by
    cbv
  have hlength : (VoicePlan.standard { fillGaps := false }).header.barLength = .ok 2000 := by
    cbv
  have hgaps : Slot.Gaps 2000
      [({ offset := 500, duration := 1500, pitch := some 0, units := 1 } : Fragment Rat)]
      [⟨0, 500, by norm_num⟩] :=
    Slot.gaps_before (by norm_num) (by norm_num)
  have hbeat : (2000 : Rat) / (VoicePlan.standard { fillGaps := false }).header.numerator ≤
      Interval.total [⟨0, 500, by norm_num⟩] := by
    cbv
  obtain ⟨warnings, hcheck, hmem⟩ :=
    hall _ _ _ _ rfl rfl hlength hbuild _ List.mem_cons_self rfl _ hgaps hbeat "Lead"
  rw [Bar.Pitched.check_eq (by decide), if_pos (by decide)] at hcheck
  obtain rfl := Except.ok.inj hcheck
  exact absurd hmem List.not_mem_nil

end PatternScore.VoicePlan
