import PatternScore.Proofs.Bar.ChordMarks
import PatternScore.Proofs.Bar.Measurable
import PatternScore.Proofs.Bar.Shifting
import PatternScore.Proofs.Conversion.Bars

/-!
# Turning single bars into tokens

Over exact arithmetic a bar is turned into tokens unless the settings forbid it, and then no bar is:
the failure is the same for all bars (`VoicePlan.tokenize_all_or_none`). What a bar is turned into
depends neither on its number nor on what its chords are marked with (`VoicePlan.tokenize_relabel`),
and a bar of rest becomes a silent one.
-/

namespace PatternScore

namespace VoicePlan

variable {p : VoicePlan Rat} {length : Rat}

/-- If the settings hold a number, every bar is measured within the same limits, or none is. -/
lemma search_all_or_none (p : VoicePlan Rat) {tolerance : Rat}
    (h : p.settings.quantizeTolerance = .value tolerance) :
    (∃ search, ∀ s, p.search s = .ok search) ∨ ∃ f, ∀ s, p.search s = .error f := by
  unfold search
  rw [h]
  cases hmost : p.settings.maxMultiplier.getIf (p.policy.quantizeMode == .fixed) 1 .notWhole with
  | error f => exact .inr ⟨f, fun s => by simp only [hmost, bind, Except.bind]⟩
  | ok most =>
    refine .inl ⟨⟨tolerance, p.settings.maxSubdivision, most⟩, fun s => ?_⟩
    have hvalue : ∀ needed refusal,
        (Setting.value tolerance).getIf needed Scalar.zero refusal = .ok tolerance :=
      fun _ _ => rfl
    simp only [hmost, hvalue, bind, Except.bind]
    rfl

/-- Over exact arithmetic every bar is turned into tokens, or none that holds anything, and then all
fail alike. -/
theorem tokenize_all_or_none (hlength : 0 < length) (hbeats : p.header.numerator ≠ 0)
    {tolerance : Rat} (h : p.settings.quantizeTolerance = .value tolerance) :
    (∀ s : Slot Rat, ∃ s', p.tokenize length s = .ok s') ∨
      ∃ f, ∀ s : Slot Rat, s.fragments ≠ [] → p.tokenize length s = .error f := by
  obtain ⟨search, hsearch⟩ | ⟨f, hsearch⟩ := p.search_all_or_none h
  · refine (Slot.quantize_all_or_none (m := p.measure length search) hlength hbeats).imp
      (fun hall s => ?_) fun hnone => ⟨.divisionByZero, fun s hne => ?_⟩
    · obtain ⟨measured, hmeasured⟩ := hall s
      obtain ⟨grouped, hgrouped⟩ := measured.exists_group_eq_ok p.policy.chordMode
      refine ⟨grouped, ?_⟩
      simp only [tokenize, hsearch, hmeasured, hgrouped, Except.mapError, bind, Except.bind]
    · simp only [tokenize, hsearch, hnone s hne, Except.mapError, bind, Except.bind]
  · refine .inr ⟨f, fun s _ => ?_⟩
    simp only [tokenize, hsearch, bind, Except.bind]

end VoicePlan

/-! ## Bars with other numbers and other marks -/

section Relabel

variable {τ : Type} {f : ChordMark → ChordMark}

namespace Slot

/-- A bar with another number and other marks of its chords. -/
def relabel (count : Int) (f : ChordMark → ChordMark) (s : Slot τ) : Slot τ :=
  (s.mapChord f).renumber count

/-- With its own marks a bar only gets another number. -/
lemma relabel_id (count : Int) (s : Slot τ) : s.relabel count id = s.renumber count := by
  have hfragment : Fragment.mapChord id = (id : Fragment τ → Fragment τ) := by
    funext x
    simp [Fragment.mapChord]
  simp [relabel, mapChord, renumber, hfragment]

/-- With its own number a bar only gets other marks. -/
lemma relabel_zero (f : ChordMark → ChordMark) (s : Slot τ) : s.relabel 0 f = s.mapChord f := by
  simp [relabel, renumber, mapChord]

/-- Fragments do not know the number of their bar. -/
lemma fragments_relabel (count : Int) (f : ChordMark → ChordMark) (s : Slot τ) :
    (s.relabel count f).fragments = s.fragments.map (Fragment.mapChord f) :=
  rfl

variable [Scalar τ]

/-- Units are found from durations and offsets alone. -/
lemma findUnits_mapChord (m : Measure τ) (fragments : List (Fragment τ)) :
    findUnits m (fragments.map (Fragment.mapChord f)) = findUnits m fragments := by
  have hdurations : (fragments.map (Fragment.mapChord f)).map (·.duration) =
      fragments.map (·.duration) := List.map_map
  have hoffsets : (fragments.map (Fragment.mapChord f)).map (·.offset) =
      fragments.map (·.offset) := List.map_map
  unfold findUnits
  rw [hdurations, hoffsets]

/-- Fragments keep their marks when they get units. -/
lemma assignUnits_mapChord (unit : τ) (fragments : List (Fragment τ)) (units : List Int) :
    assignUnits unit (fragments.map (Fragment.mapChord f)) units =
      ((assignUnits unit fragments units).1.map (Fragment.mapChord f),
        (assignUnits unit fragments units).2) := by
  induction fragments generalizing units with
  | nil => rfl
  | cons x rest ih =>
    cases units with
    | nil => rfl
    | cons first more =>
      have hoffset : (x.mapChord f).offset = x.offset := rfl
      rw [List.map_cons, assignUnits, assignUnits, ih, hoffset]
      dsimp only
      split <;> rfl

/-- A bar is measured whatever its number and the marks of its chords are. -/
lemma quantize_relabel (m : Measure τ) (count : Int) (s : Slot τ) :
    ((s.relabel count f).quantize m).mapError (·.failure) =
      ((s.quantize m).mapError (·.failure)).map (relabel count f) := by
  unfold quantize
  rw [fragments_relabel, List.isEmpty_map, findUnits_mapChord]
  split
  · rfl
  · cases findUnits m s.fragments with
    | error failure => rfl
    | ok found =>
      obtain ⟨units, unit⟩ := found
      simp only [Except.mapError, bind, Except.bind, assignUnits_mapChord]
      obtain ⟨done, result⟩ := assignUnits unit s.fragments units
      cases result with
      | error failure => rfl
      | ok _ =>
        dsimp only
        cases Scalar.div m.length unit with
        | error failure => rfl
        | ok quotient =>
          dsimp only
          cases Scalar.roundHalfUp quotient <;> rfl

/-- A bar is laid out whatever its number is, and whatever the marks of its chords are as long as
different marks stay different. -/
lemma group_relabel (hf : Function.Injective f) (mode : ChordMode) (count : Int) (s : Slot τ) :
    ((s.relabel count f).group mode).mapError (·.failure) =
      ((s.group mode).mapError (·.failure)).map (relabel count f) := by
  have htarget : (s.relabel count f).target = s.target := rfl
  unfold group
  rw [fragments_relabel, Span.collect_mapChord hf, htarget]
  dsimp only
  split
  · rfl
  · simp only [Except.mapError, bind, Except.bind]
    set divisor := Units.commonDivisor (((Span.layOut (Span.collect mode s.fragments)).filter
      (0 < ·.units)).map (·.units))
    cases (Scalar.ofInt divisor : Except Failure τ) with
    | error failure => rfl
    | ok factor =>
      dsimp only
      cases (Scalar.ratio s.target divisor : Except Failure τ) with
      | error failure => rfl
      | ok quotient =>
        dsimp only
        cases Scalar.roundHalfUp quotient <;> rfl

end Slot

namespace VoicePlan

variable [Scalar τ]

/-- A bar is turned into tokens whatever its number and the marks of its chords are. -/
lemma tokenize_relabel (hf : Function.Injective f) (p : VoicePlan τ) (length : τ) (count : Int)
    (s : Slot τ) :
    p.tokenize length (s.relabel count f) = (p.tokenize length s).map (Slot.relabel count f) := by
  have hsearch : p.search (s.relabel count f) = p.search s := by
    unfold search
    rw [Slot.fragments_relabel, List.any_map]
    rfl
  unfold tokenize
  rw [hsearch]
  cases p.search s with
  | error failure => rfl
  | ok search =>
    simp only [bind, Except.bind, Slot.quantize_relabel]
    cases (s.quantize (p.measure length search)).mapError (·.failure) with
    | error failure => rfl
    | ok measured => exact Slot.group_relabel hf _ _ _

/-- A bar is turned into tokens whatever its number is. -/
lemma tokenize_renumber (p : VoicePlan τ) (length : τ) (count : Int) (s : Slot τ) :
    p.tokenize length (s.renumber count) = (p.tokenize length s).map (Slot.renumber count) := by
  rw [← Slot.relabel_id, p.tokenize_relabel Function.injective_id,
    funext fun s : Slot τ => s.relabel_id count]

/-- A bar is turned into tokens whatever the marks of its chords are. -/
lemma tokenize_mapChord (hf : Function.Injective f) (p : VoicePlan τ) (length : τ) (s : Slot τ) :
    p.tokenize length (s.mapChord f) = (p.tokenize length s).map (Slot.mapChord f) := by
  rw [← Slot.relabel_zero, p.tokenize_relabel hf, funext fun s : Slot τ => s.relabel_zero f]

end VoicePlan

end Relabel

/-! ## Bars of rest -/

section Rest

variable {τ : Type}

/-- A rest alone is laid out alone. -/
lemma Slot.laid_rest (mode : ChordMode) {s : Slot τ} {f : Fragment τ} (h : s.fragments = [f])
    (hrest : f.pitch = none) :
    s.laid mode = [{ Span.ofFragment f with reach := (Span.ofFragment f).stop }] := by
  have hisRest : (Span.ofFragment f).isRest = true := by simp [Span.ofFragment, hrest]
  unfold Slot.laid
  rw [h]
  simp [Span.collect, Span.absorb, Span.layOut, Span.lay, Span.hold, hisRest]

variable [Scalar τ]

/-- A bar of rest becomes a silent bar. -/
lemma VoicePlan.isSilent_of_tokenize {p : VoicePlan τ} {length : τ} {s s' : Slot τ}
    {f : Fragment τ} (h : p.tokenize length s = .ok s') (hfragments : s.fragments = [f])
    (hrest : f.pitch = none) : s'.isSilent = true := by
  have hne : s.fragments ≠ [] := by simp [hfragments]
  obtain ⟨search, measured, hmeasured, hcounted, hgroup⟩ := stages_of_tokenize h hne
  have hmeasuredFragments := hmeasured.fragments
  rw [hfragments] at hmeasuredFragments
  obtain ⟨f', hf', hsingle⟩ : ∃ f' : Fragment τ, f'.pitch = none ∧ measured.fragments = [f'] := by
    cases hrests : measured.fragments with
    | nil => simp [hrests] at hmeasuredFragments
    | cons f' more =>
      rw [hrests] at hmeasuredFragments
      obtain ⟨hfirst, hmore⟩ := List.forall₂_cons.mp hmeasuredFragments
      rw [List.forall₂_nil_left_iff.mp hmore]
      exact ⟨f', hfirst.pitch_eq.trans hrest, rfl⟩
  have htokens := (Slot.groupedAs_group hcounted hgroup).tokens_eq
  rw [Slot.laid_rest _ hsingle hf'] at htokens
  have hisRest : (Span.ofFragment f').isRest = true := by simp [Span.ofFragment, hf']
  simp [Slot.isSilent, htokens, Span.token, hisRest, Token.isRest]

end Rest

end PatternScore
