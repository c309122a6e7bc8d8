import Mathlib
import PatternScore.Proofs.Bar.Filling
import PatternScore.Proofs.Bar.Grouping
import PatternScore.Proofs.Conversion.ExactTiming

/-!
# The bars of a voice are well formed

A voice is built in stages: its events are cut into bars, each bar is measured, and each measured
bar is laid out as tokens. When all stages succeed, a bar has gone through them one after another
(`VoicePlan.Stages`), and since cut bars are filled, measured fragments counted and laid spans
formed, it is well formed. No arithmetic is supposed exact, and no events are excluded.
-/

namespace PatternScore

namespace VoicePlan

variable {τ : Type} [Scalar τ] {p : VoicePlan τ} {length : τ} {s s' : Slot τ}

/-- A bar goes through the stages of a plan: within the limits of some search it is measured, and
then it is grouped. -/
def Stages (p : VoicePlan τ) (length : τ) (s s' : Slot τ) : Prop :=
  ∃ search measured, s.MeasuredAs (p.measure length search) measured ∧ measured.Counted ∧
    measured.group p.policy.chordMode = .ok s'

/-- A bar with fragments that is turned into tokens goes through the stages. -/
lemma stages_of_tokenize (h : p.tokenize length s = .ok s') (hne : s.fragments ≠ []) :
    p.Stages length s s' := by
  obtain ⟨search, -, h⟩ := exists_of_bind_eq_ok h
  obtain ⟨measured, hmeasured, h⟩ := exists_of_bind_eq_ok h
  have hspec := Slot.measuredAs_quantize (mapError_eq_ok_iff.mp hmeasured) hne
  exact ⟨search, measured, hspec, hspec.counted hne, mapError_eq_ok_iff.mp h⟩

namespace Stages

/-- A bar keeps its number. -/
lemma index_eq (h : p.Stages length s s') : s'.index = s.index := by
  obtain ⟨search, measured, hmeasured, hcounted, hgroup⟩ := h
  exact (Slot.groupedAs_group hcounted hgroup).index_eq.trans hmeasured.index_eq

/-- An upbeat stays one, and no other bar becomes one. -/
lemma pickup_eq (h : p.Stages length s s') : s'.pickup = s.pickup := by
  obtain ⟨search, measured, hmeasured, hcounted, hgroup⟩ := h
  exact (Slot.groupedAs_group hcounted hgroup).pickup_eq.trans hmeasured.pickup_eq

/-- A bar that has gone through the stages is well formed. -/
lemma wellFormed (h : p.Stages length s s') : Bar.WellFormed s'.tokens := by
  obtain ⟨search, measured, -, hcounted, hgroup⟩ := h
  rw [(Slot.groupedAs_group hcounted hgroup).tokens_eq]
  exact hcounted.wellFormed p.policy.chordMode

end Stages

/-- The bars that are built are cut on the grid of the header, and go through the stages. -/
lemma exists_stages {events : List (Event τ)} {slots : List (Slot τ)}
    (h : p.build events = .ok slots) {P : τ → Fragment τ → Prop}
    (hP : ∀ length tolerance, ¬ length ≤ Scalar.zero → ¬ tolerance < Scalar.zero →
      (p.grid length tolerance).Makes (P length)) :
    ∃ length cut, p.header.barLength = .ok length ∧ ¬ length ≤ Scalar.zero ∧
      Slot.Filled (P length) cut ∧ List.Forall₂ (p.Stages length) cut slots := by
  obtain ⟨length, hlength, h⟩ := exists_of_bind_eq_ok h
  obtain ⟨epsilon, -, h⟩ := exists_of_bind_eq_ok h
  obtain ⟨tolerance, -, h⟩ := exists_of_bind_eq_ok h
  obtain ⟨cut, hcut, h⟩ := exists_of_bind_eq_ok h
  have hsegment := mapError_eq_ok_iff.mp hcut
  unfold Grid.segment at hsegment
  split at hsegment
  · cases hsegment
  · rename_i hpositive
    split at hsegment
    · cases hsegment
    · rename_i htolerance
      cases hsegment
      have hfilled := Grid.filled_cut (hP length tolerance hpositive htolerance)
        (Event.audible epsilon events)
      refine ⟨length, _, hlength, hpositive, hfilled, ?_⟩
      have hall := List.forall₂_and_left _ _ |>.mpr ⟨hfilled.fragments_ne_nil, mapM_eq_ok_iff.mp h⟩
      exact hall.imp fun s s' hs => stages_of_tokenize hs.2 hs.1

/-- If a voice is built, whatever it is built from, its bars are numbered from zero and well formed,
and the check of a bar can only warn about its length. -/
theorem build_wellFormed {events : List (Event τ)} {slots : List (Slot τ)}
    (h : p.build events = .ok slots) :
    (∀ (i : Nat) (hi : i < slots.length), slots[i].index = i) ∧
    ∀ s ∈ slots, Bar.WellFormed s.tokens ∧ ∀ name, s.check name =
      .ok (if s.pickup || s.units == s.target then [] else [s.wrongLength name]) := by
  obtain ⟨length, cut, -, -, hfilled, hstages⟩ :=
    exists_stages h (P := fun _ _ => True) fun _ _ _ _ => Grid.makes_true _
  constructor
  · intro i hi
    have hcut : i < cut.length := hstages.length_eq ▸ hi
    have hstage : p.Stages length cut[i] slots[i] := hstages.get hcut hi
    rw [hstage.index_eq]
    exact hfilled.index_eq i hcut
  · intro s hs
    obtain ⟨s₀, -, hstage⟩ := exists_mem_of_forall₂ hstages hs
    exact ⟨hstage.wellFormed, hstage.wellFormed.check_eq⟩

/-- A note that begins late in the first bar and lasts through the second. -/
theorem build_wellFormed_tied :
    ∃ slots, (VoicePlan.standard { fillGaps := false }).build
        [{ onset := 500, duration := 3500, pitch := some 4 }] = .ok slots ∧
      slots.map (·.tokens) = [[.note [4] 1], [.note [4] 1]] ∧
      (∀ (i : Nat) (hi : i < slots.length), slots[i].index = i) ∧
      ∀ s ∈ slots, Bar.WellFormed s.tokens := by
  have hbuild : (VoicePlan.standard { fillGaps := false }).build
      [{ onset := 500, duration := 3500, pitch := some 4 }] =
      .ok [
        { index := 0
          fragments := [{ offset := 500, duration := 1500, pitch := some 4, units := 1 }]
          tokens := [.note [4] 1], unit := 1500, target := 1 },
        { index := 1
          fragments := [{ offset := 0, duration := 2000, pitch := some 4, units := 1 }]
          tokens := [.note [4] 1], unit := 2000, target := 1 }] := by
    cbv
  obtain ⟨hindex, hformed⟩ := build_wellFormed hbuild
  exact ⟨_, hbuild, rfl, hindex, fun s hs => (hformed s hs).1⟩

end VoicePlan

end PatternScore
