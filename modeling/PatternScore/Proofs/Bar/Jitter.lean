import PatternScore.Proofs.Bar.MinimalUnit
import PatternScore.Proofs.Bar.Sequential
import PatternScore.Proofs.Bar.Sounding

/-!
# Notes one after another

Notes that follow each other without overlaps stay apart however they are measured the minimal way.
The unit is not longer than the shortest of them, so the offsets, which are at least a unit apart,
are rounded to different numbers of units, in the same order (`Slot.Successive.pairwise_counted`).
The rounding may let notes overlap. Still, no two begin together, so the layout cuts a note where
the next one begins and neither joins nor loses any (`Span.map_pitches_notes_layOut`). Every note
becomes a token of its own (`Slot.quantize_group_successive`).
-/

namespace PatternScore

namespace Span

variable {τ : Type} {mode : ChordMode} {fragments : List (Fragment τ)}

/-- Notes are held with the pitches that they have. -/
lemma map_pitches_sustain (sounding : Int) (chords : List Span) :
    (sustain sounding chords).map (·.pitches) = chords.map (·.pitches) := by
  induction chords generalizing sounding with
  | nil => rfl
  | cons n rest ih =>
    rw [sustain, List.map_cons, List.map_cons, ih]
    rfl

/-- Where notes begin one after another, the notes of the line are these, in their order. -/
lemma map_pitches_notes_layOut (hunits : ∀ f ∈ fragments, 1 ≤ f.units)
    (hincreasing : (notes (collect mode fragments)).Pairwise fun m n => m.start < n.start) :
    (notes (layOut (collect mode fragments))).map (·.pitches) =
      (notes (collect mode fragments)).map (·.pitches) := by
  have hinOrder := inOrder_collect mode hunits
  have hgathers := hinOrder.gathers_chords
  have hstarts : (chords (collect mode fragments)).map (·.start) =
      (notes (collect mode fragments)).map (·.start) := by
    apply List.SortedLT.eq_of_mem_iff
    · exact (List.pairwise_map.mpr hinOrder.sorted_chords).sortedLT
    · exact (List.pairwise_map.mpr hincreasing).sortedLT
    · intro time
      rw [List.mem_map, List.mem_map]
      constructor
      · rintro ⟨c, hc, rfl⟩
        obtain ⟨n, hn, hstart, -⟩ := hgathers.reach_from c hc
        exact ⟨n, hn, hstart⟩
      · rintro ⟨n, hn, rfl⟩
        obtain ⟨c, hc, hstart, -⟩ := hgathers.kept n hn
        exact ⟨c, hc, hstart⟩
  have hdistinct : ((notes (collect mode fragments)).map (·.start)).Nodup :=
    List.pairwise_map.mpr (hincreasing.imp fun hlt => hlt.ne)
  -- No other note begins with a note, so it has all the pitches that begin with it.
  have hown : ∀ n ∈ notes (collect mode fragments),
      NoteGroup.pitchesAt (NoteGroup.inBar mode fragments) n.start = n.pitches := by
    intro n hn
    have hformed := formed_collect mode hunits n (mem_notes.mp hn).1
    apply List.SortedLT.eq_of_mem_iff
    · exact (NoteGroup.pairwise_pitchesAt _ _).sortedLT
    · exact hformed.ascending.sortedLT
    · intro p
      rw [NoteGroup.mem_pitchesAt_inBar]
      constructor
      · rintro ⟨m, hm, hstart, hp⟩
        rwa [← List.inj_on_of_nodup_map hdistinct hm hn hstart]
      · intro hp
        exact ⟨n, hn, rfl, hp⟩
  calc (notes (layOut (collect mode fragments))).map (·.pitches)
      = (chords (collect mode fragments)).map (·.pitches) := by
        rw [hinOrder.notes_layOut_eq, map_pitches_sustain]
    _ = ((chords (collect mode fragments)).map (·.start)).map
          (NoteGroup.pitchesAt (NoteGroup.inBar mode fragments)) := by
        rw [List.map_map]
        exact List.map_congr_left fun n hn => NoteGroup.pitches_chords hunits hn
    _ = (notes (collect mode fragments)).map (·.pitches) := by
        rw [hstarts, List.map_map]
        exact List.map_congr_left hown

/-- The notes of fragments that begin one after another are those of the fragments. -/
lemma map_pitches_notes_line {fragments : List (Fragment τ)} (hunits : ∀ f ∈ fragments, 1 ≤ f.units)
    (hincreasing : fragments.Pairwise fun f g => f.offsetUnits < g.offsetUnits) :
    (notes (layOut (collect .timing fragments))).map (·.pitches) =
      (fragments.filter (·.pitch.isSome)).map fun f => f.pitch.toList := by
  have hcollect := collect_eq_of_increasing hincreasing
  have hnotes : notes (collect .timing fragments) =
      (fragments.filter (·.pitch.isSome)).map alone := by
    rw [hcollect, notes, List.filter_map]
    congr 2
    funext f
    simp [alone, ofFragment]
  have hstarts : (notes (collect .timing fragments)).Pairwise fun m n => m.start < n.start := by
    rw [hnotes, List.pairwise_map]
    exact hincreasing.filter _
  rw [map_pitches_notes_layOut hunits hstarts, hnotes, List.map_map]
  apply List.map_congr_left
  intro f _
  cases hpitch : f.pitch <;>
    simp [alone, ofFragment, addPitch, insertPitch, hpitch]

end Span

/-- A token is the note of a fragment alone. -/
def Fragment.PlayedAs {τ : Type} (f : Fragment τ) (tok : Token) : Prop :=
  ∃ p units, f.pitch = some p ∧ tok = .note [p] units

namespace Slot

/-- Fragments that begin one after another become a note token each, in their order. -/
lemma forall₂_playedAs {τ : Type} {s : Slot τ} (hunits : ∀ f ∈ s.fragments, 1 ≤ f.units)
    (hincreasing : s.fragments.Pairwise fun f g => f.offsetUnits < g.offsetUnits)
    (divisor : Int) :
    List.Forall₂ Fragment.PlayedAs (s.fragments.filter (·.pitch.isSome))
      (((s.laid .timing).map fun x => x.token (x.units / divisor)).filter (!·.isRest)) := by
  have hpitches := Span.map_pitches_notes_line hunits hincreasing
  have heq : List.Forall₂ (· = ·)
      ((s.fragments.filter (·.pitch.isSome)).map fun f => f.pitch.toList)
      ((Span.notes (s.laid .timing)).map (·.pitches)) := by
    rw [laid, hpitches]
    exact List.forall₂_refl _
  rw [List.forall₂_map_left_iff, List.forall₂_map_right_iff] at heq
  rw [filter_map_token, List.forall₂_map_right_iff]
  have hsome : ∀ f ∈ s.fragments.filter (·.pitch.isSome), f.pitch.isSome = true := fun f hf =>
    (List.mem_filter.mp hf).2
  refine ((List.forall₂_and_left _ _).mpr ⟨hsome, heq⟩).imp ?_
  rintro f x ⟨hnote, hsame⟩
  obtain ⟨p, hp⟩ := Option.isSome_iff_exists.mp hnote
  refine ⟨p, x.units / divisor, hp, ?_⟩
  rw [← hsame, hp]
  rfl

/-- In exact arithmetic they do. -/
lemma exists_group_playedAs {s : Slot Rat} (hunits : ∀ f ∈ s.fragments, 1 ≤ f.units)
    (hincreasing : s.fragments.Pairwise fun f g => f.offsetUnits < g.offsetUnits) :
    ∃ grouped, s.group .timing = .ok grouped ∧
      List.Forall₂ Fragment.PlayedAs (s.fragments.filter (·.pitch.isSome))
        (grouped.tokens.filter (!·.isRest)) := by
  obtain ⟨divisor, hpos, -, hgroup⟩ := exists_group_eq_coarsen hunits .timing
  rw [coarsen_eq hpos] at hgroup
  exact ⟨_, hgroup, forall₂_playedAs hunits hincreasing divisor⟩

/-! ## Bars -/

/-- Notes and rests that take time and follow each other without overlaps. -/
structure Successive (fragments : List (Fragment Rat)) : Prop where
  /-- Each of them takes time. -/
  lasts : ∀ f ∈ fragments, 1 / 1000000000 < f.duration
  /-- Each ends before the next begins. -/
  ordered : fragments.IsChain fun f g => f.stop ≤ g.offset

/-- Offsets that are at least a unit apart are rounded to different units. -/
lemma Successive.pairwise_counted {fragments : List (Fragment Rat)} (h : Successive fragments)
    {unit : Rat} (hunit : 0 < unit) (hle : ∀ f ∈ fragments, unit ≤ f.duration)
    (units : Fragment Rat → Int) :
    (fragments.map fun f => counted unit (units f) f).Pairwise fun f g =>
      f.offsetUnits < g.offsetUnits := by
  have hchain : (fragments.map fun f => ⌊f.offset / unit + 1 / 2⌋).IsChain (· < ·) := by
    rw [List.isChain_map]
    refine h.ordered.imp_of_mem_imp fun f g hf _ hstop => ?_
    have hlong : f.offset + unit ≤ g.offset := by
      have hduration := hle f hf
      unfold Fragment.stop at hstop
      linarith
    have hone : f.offset / unit + 1 ≤ g.offset / unit := by
      rw [div_add_one hunit.ne', div_le_div_iff_of_pos_right hunit]
      exact hlong
    rw [← Int.add_one_le_iff, Int.le_floor]
    have hfloor := Int.floor_le (f.offset / unit + 1 / 2)
    push_cast
    linarith
  rw [List.isChain_iff_pairwise, List.pairwise_map] at hchain
  rw [List.pairwise_map]
  exact hchain

/-- A bar of notes and rests that follow each other without overlaps is measured the minimal way so
that each begins later than the one before, and it becomes tokens of which the notes are those of
the bar, one by one. -/
theorem quantize_group_successive {m : Measure Rat} {s : Slot Rat} (hmode : m.mode = .minimal)
    (h : Successive s.fragments) :
    ∃ measured grouped : Slot Rat, s.quantize m = .ok measured ∧
      List.Forall₂ Fragment.MeasuredAs s.fragments measured.fragments ∧
      (measured.fragments.Pairwise fun f g => f.offsetUnits < g.offsetUnits) ∧
      measured.group .timing = .ok grouped ∧
      List.Forall₂ Fragment.PlayedAs (s.fragments.filter (·.pitch.isSome))
        (grouped.tokens.filter (!·.isRest)) := by
  by_cases hne : s.fragments = []
  · have hnone : ∀ f ∈ s.fragments, 1 ≤ f.units := by simp [hne]
    have hincreasing : s.fragments.Pairwise fun f g => f.offsetUnits < g.offsetUnits := by
      simp [hne]
    have hmeasures : List.Forall₂ Fragment.MeasuredAs s.fragments s.fragments := by
      rw [hne]
      exact .nil
    have hquantize : s.quantize m = .ok s := by
      rw [quantize, hne]
      rfl
    obtain ⟨grouped, hgroup, hplayed⟩ := exists_group_playedAs hnone hincreasing
    exact ⟨s, grouped, hquantize, hmeasures, hincreasing, hgroup, hplayed⟩
  · obtain ⟨first, hfirst⟩ := List.exists_mem_of_ne_nil s.fragments hne
    obtain ⟨units, unit, hunit, hunits, hshort, hquantize⟩ :=
      exists_quantize_minimal hmode ⟨first, hfirst, h.lasts first hfirst⟩
    have hle : ∀ f ∈ s.fragments, unit ≤ f.duration := fun f hf => hshort f hf (h.lasts f hf)
    have hincreasing := h.pairwise_counted hunit hle units
    obtain ⟨grouped, hgroup, hplayed⟩ := exists_group_playedAs
      (s := { s with
        fragments := s.fragments.map fun f => counted unit (units f) f
        unit
        target := ⌊m.length / unit + 1 / 2⌋ })
      (List.forall_mem_map.mpr hunits) hincreasing
    refine ⟨_, grouped, hquantize, ?_, hincreasing, hgroup, ?_⟩
    · rw [List.forall₂_map_right_iff, List.forall₂_same]
      exact fun f hf => ⟨rfl, rfl, rfl, rfl, hunits f hf⟩
    · rw [List.filter_map, List.forall₂_map_left_iff] at hplayed
      exact hplayed

/-- A note, a rest and two notes, none of which is quite in time. -/
def jittered : Slot Rat where
  index := 0
  fragments := [
    { offset := 3, duration := 246, pitch := some 0 },
    { offset := 249, duration := 255 },
    { offset := 504, duration := 250, pitch := some 4 },
    { offset := 758, duration := 252, pitch := some 4 }]
  unit := 0

/-- The notes are played in time. -/
theorem quantize_group_successive_jittered :
    Successive jittered.fragments ∧
    (∃ measured grouped : Slot Rat, jittered.quantize briefBars = .ok measured ∧
      List.Forall₂ Fragment.MeasuredAs jittered.fragments measured.fragments ∧
      (measured.fragments.Pairwise fun f g => f.offsetUnits < g.offsetUnits) ∧
      measured.group .timing = .ok grouped ∧
      List.Forall₂ Fragment.PlayedAs (jittered.fragments.filter (·.pitch.isSome))
        (grouped.tokens.filter (!·.isRest))) ∧
    (jittered.quantize briefBars).map (fun s => s.fragments.map (·.offsetUnits)) =
      .ok [0, 1, 2, 3] := by
  have hsuccessive : Successive jittered.fragments := by
    constructor
    · simp only [jittered, List.forall_mem_cons]
      norm_num
    · simp only [jittered, List.isChain_cons_cons, Fragment.stop]
      norm_num
  refine ⟨hsuccessive, quantize_group_successive rfl hsuccessive, ?_⟩
  cbv

end Slot

end PatternScore
