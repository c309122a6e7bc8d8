import Mathlib
import PatternScore.Proofs.Bar.Grouping
import PatternScore.Proofs.Bar.NoteGroup

/-!
# How long the tokens of a bar last

The tokens of a bar last as many units as its line has instants, since the spans of the line follow
each other (`Span.card_instants`). An instant of the line is one at which a note group sounds, or
one of a rest in which no group has begun (`Slot.exists_laid_has_iff`): the rest behind the notes
that cut a rest short is not laid again. So a bar has its full length, up to half a unit of its
tokens, if and only if all but so much of it is kept (`Slot.group_keeps`); and a bar that its
fragments cover has it if no rest outlasts the notes that begin in it
(`Slot.units_eq_target_of_covered`).
-/

namespace PatternScore

/-- A unit of a bar is one of a fragment. -/
def Fragment.HasUnit {τ : Type} (f : Fragment τ) (time : Int) : Prop :=
  f.offsetUnits ≤ time ∧ time < f.offsetUnits + f.units

/-- Both bounds can be compared. -/
instance {τ : Type} (f : Fragment τ) (time : Int) : Decidable (f.HasUnit time) :=
  inferInstanceAs (Decidable (_ ∧ _))

/-- A bar keeps one of its units: a note group sounds there, or there is a rest in which none has
begun. -/
def Slot.Keeps {τ : Type} (mode : ChordMode) (s : Slot τ) (time : Int) : Prop :=
  (∃ g ∈ NoteGroup.ofFragments mode s.fragments, g.Has time) ∨
    ∃ r ∈ s.fragments, r.pitch = none ∧ r.HasUnit time ∧
      ∀ g ∈ NoteGroup.ofFragments mode s.fragments, ¬ (r.offsetUnits < g.start ∧ g.start ≤ time)

/-- The note groups and the rests of a bar are finitely many, so each of its units can be looked
at. -/
instance {τ : Type} (mode : ChordMode) (s : Slot τ) (time : Int) : Decidable (s.Keeps mode time) :=
  inferInstanceAs (Decidable (_ ∨ _))

namespace Span

/-! ## The instants of a line -/

/-- Spans that follow each other last as many units as there are instants in them. -/
lemma card_instants {line : List Span} (hordered : line.Pairwise fun s t => s.stop ≤ t.start)
    (hlasting : ∀ s ∈ line, s.start < s.stop) {instants : Finset Int}
    (h : ∀ time, time ∈ instants ↔ ∃ s ∈ line, s.Has time) :
    (instants.card : Int) = (line.map (·.units)).sum := by
  induction line generalizing instants with
  | nil =>
    have hempty : instants = ∅ := Finset.eq_empty_of_forall_notMem fun time => by simp [h]
    rw [hempty]
    rfl
  | cons s rest ih =>
    obtain ⟨hfirst, hrest⟩ := List.pairwise_cons.mp hordered
    obtain ⟨hlasts, hlasting⟩ := List.forall_mem_cons.mp hlasting
    -- The instants before the end of the first span are its own.
    have hown : instants.filter (· < s.stop) = Finset.Ico s.start s.stop := by
      ext time
      rw [Finset.mem_filter, h, Finset.mem_Ico]
      constructor
      · rintro ⟨⟨t, ht, hhas⟩, hlt⟩
        rcases List.mem_cons.mp ht with rfl | ht
        · exact hhas
        · exact absurd ((hfirst t ht).trans hhas.1) (not_le.mpr hlt)
      · exact fun hhas => ⟨⟨s, List.mem_cons_self, hhas⟩, hhas.2⟩
    have hothers : ∀ time, time ∈ instants.filter (¬ · < s.stop) ↔ ∃ t ∈ rest, t.Has time := by
      intro time
      rw [Finset.mem_filter, h, not_lt]
      constructor
      · rintro ⟨⟨t, ht, hhas⟩, hle⟩
        rcases List.mem_cons.mp ht with rfl | ht
        · exact absurd hhas.2 (not_lt.mpr hle)
        · exact ⟨t, ht, hhas⟩
      · rintro ⟨t, ht, hhas⟩
        exact ⟨⟨t, List.mem_cons_of_mem _ ht, hhas⟩, (hfirst t ht).trans hhas.1⟩
    have hsplit := Finset.card_filter_add_card_filter_not (s := instants) (· < s.stop)
    have hrestCard := ih hrest hlasting hothers
    rw [hown, Int.card_Ico] at hsplit
    rw [List.map_cons, List.sum_cons, ← hrestCard, ← hsplit]
    unfold stop at hlasts ⊢
    push_cast
    omega

end Span

/-- Where there is a note, there is its group. -/
lemma NoteGroup.exists_has {τ : Type} (mode : ChordMode) {fragments : List (Fragment τ)}
    {f : Fragment τ} (hf : f ∈ fragments) (hnote : f.pitch.isSome = true) {time : Int}
    (hhas : f.HasUnit time) : ∃ g ∈ ofFragments mode fragments, g.Has time := by
  obtain ⟨s, -, hmerges⟩ := (Span.merged_collect mode fragments).kept f hf
  have hown : f ∈ Span.ofKey mode fragments (Span.Key.ofFragment mode f) :=
    Span.mem_ofKey.mpr ⟨hf, rfl⟩
  have hgroup := isOf_of_merges hmerges
  refine ⟨_, mem_ofFragments.mpr ⟨f, hf, hnote, rfl⟩, ?_, ?_⟩
  · rw [hgroup.start_eq]
    exact (hmerges.start_least.2 ⟨f, hown, rfl⟩).trans hhas.1
  · rw [hgroup.stop_eq]
    exact hhas.2.trans_le (hmerges.stop_greatest.2 ⟨f, hown, rfl⟩)

namespace Slot

/-! ## The length of a bar -/

section Keeps

variable {τ : Type} {s : Slot τ}

/-- The fragments of a bar begin and end in it. -/
def Inside (s : Slot τ) : Prop :=
  ∀ f ∈ s.fragments, 0 ≤ f.offsetUnits ∧ f.offsetUnits + f.units ≤ s.target

/-- Each fragment can be looked at. -/
instance (s : Slot τ) : Decidable s.Inside :=
  inferInstanceAs (Decidable (∀ f ∈ s.fragments, _ ∧ _))

/-- How many units of a bar are kept. -/
def keptUnits (mode : ChordMode) (s : Slot τ) : Nat :=
  Nat.count (fun time => s.Keeps mode time) s.target.toNat

variable (hunits : ∀ f ∈ s.fragments, 1 ≤ f.units) (hinside : s.Inside) (mode : ChordMode)

include hunits hinside

/-- The spans of a bar whose fragments last and lie in it are laid out into its line. -/
lemma laidOut_of_inside : Span.LaidOut (Span.collect mode s.fragments) (s.laid mode) :=
  (Span.inOrder_collect mode hunits).laidOut_layOut fun _ hx =>
    (Span.within_of_mem_collect hinside hx).1

/-- The instants of the line of a bar are its kept units. -/
theorem exists_laid_has_iff {time : Int} :
    (∃ x ∈ s.laid mode, x.Has time) ↔ s.Keeps mode time := by
  have hgroups {start : Int} :
      (∀ n ∈ Span.notes (Span.collect mode s.fragments), ¬ (start < n.start ∧ n.start ≤ time)) ↔
        ∀ g ∈ NoteGroup.ofFragments mode s.fragments, ¬ (start < g.start ∧ g.start ≤ time) := by
    have hbegun : (∃ n ∈ Span.notes (Span.collect mode s.fragments),
        start < n.start ∧ n.start ≤ time) ↔
          ∃ g ∈ NoteGroup.ofFragments mode s.fragments, start < g.start ∧ g.start ≤ time :=
      (NoteGroup.exists_iff (P := fun begin _ => start < begin ∧ begin ≤ time)).symm
    simpa using not_congr hbegun
  rw [(laidOut_of_inside hunits hinside mode).exists_has_iff, Keeps]
  apply or_congr
  · exact (NoteGroup.exists_iff (P := fun start stop => start ≤ time ∧ time < stop)).symm
  · simp only [hgroups]
    exact Span.exists_rest_iff (P := fun start stop => (start ≤ time ∧ time < stop) ∧
      ∀ g ∈ NoteGroup.ofFragments mode s.fragments, ¬ (start < g.start ∧ g.start ≤ time))

/-- The line of a bar lasts its kept units. -/
theorem sum_units_laid : ((s.laid mode).map (·.units)).sum = s.keptUnits mode := by
  have hlaid := laidOut_of_inside hunits hinside mode
  set instants := ((Finset.range s.target.toNat).filter
    fun time : Nat => s.Keeps mode time).map (Nat.castEmbedding : Nat ↪ Int) with hinstants
  have hmem (time : Int) : time ∈ instants ↔ ∃ x ∈ s.laid mode, x.Has time := by
    rw [hinstants, Finset.mem_map]
    simp only [Finset.mem_filter, Finset.mem_range, Nat.castEmbedding_apply]
    constructor
    · rintro ⟨n, ⟨-, hkept⟩, rfl⟩
      exact (exists_laid_has_iff hunits hinside mode).mpr hkept
    · rintro ⟨x, hx, hhas⟩
      obtain ⟨y, hy, hhas'⟩ := hlaid.exists_has hx hhas
      obtain ⟨hstart, hstop⟩ := Span.within_of_mem_collect hinside hy
      lift time to Nat using hstart.trans hhas'.1
      have hlt := hhas'.2
      exact ⟨time, ⟨by omega, (exists_laid_has_iff hunits hinside mode).mp ⟨x, hx, hhas⟩⟩, rfl⟩
  rw [← Span.card_instants hlaid.ordered hlaid.lasting hmem, hinstants, Finset.card_map, keptUnits,
    Nat.count_eq_card_filter_range]

/-- The tokens of a bar last its kept units, counted in units of several of those of the
fragments. -/
theorem exists_group_units [Scalar τ] : ∃ (divisor : Int) (tokens : Bar), 0 < divisor ∧
    s.group mode = (s.coarsen divisor).map (fun s' => { s' with tokens }) ∧
    tokens.units * divisor = s.keptUnits mode := by
  obtain ⟨divisor, hpos, hdvd, hgroup⟩ := exists_group_eq_coarsen hunits mode
  refine ⟨divisor, _, hpos, hgroup, ?_⟩
  have hsum : divisor ∣ ((s.laid mode).map (·.units)).sum :=
    List.dvd_sum (List.forall_mem_map.mpr hdvd)
  rw [Span.units_map_token hdvd, Int.ediv_mul_cancel hsum, sum_units_laid hunits hinside mode]

end Keeps

/-- A length is a rounded one if it misses it by at most half a unit. -/
lemma eq_floor_iff {n target divisor : Int} (h : 0 < divisor) :
    n = ⌊(target : Rat) / divisor + 1 / 2⌋ ↔
      -divisor ≤ 2 * (target - n * divisor) ∧ 2 * (target - n * divisor) < divisor := by
  have hdivisor : (0 : Rat) < divisor := by exact_mod_cast h
  have hcast : (target : Rat) / divisor + 1 / 2 = (2 * target + divisor : Int) / (2 * divisor) := by
    push_cast
    field_simp
  rw [eq_comm, Int.floor_eq_iff, hcast, le_div_iff₀ (by positivity), div_lt_iff₀ (by positivity)]
  norm_cast
  constructor <;> rintro ⟨hle, hlt⟩ <;> constructor <;> linarith

variable {s : Slot Rat}

/-- A bar whose fragments lie in it gets tokens that last its kept units: those at which a note
group sounds, and those of a rest in which none has begun. They are as many as the full length asks
for if less than half a unit of the tokens is missing, and not if more is. -/
theorem group_keeps (hunits : ∀ f ∈ s.fragments, 1 ≤ f.units) (hinside : s.Inside)
    (mode : ChordMode) :
    ∃ (divisor : Int) (s' : Slot Rat), 0 < divisor ∧ s.group mode = .ok s' ∧
      s'.unit = s.unit * divisor ∧
      s'.units * divisor = s.keptUnits mode ∧
      s'.target = ⌊(s.target : Rat) / divisor + 1 / 2⌋ ∧
      (s'.units = s'.target ↔ -divisor ≤ 2 * (s.target - s.keptUnits mode) ∧
        2 * (s.target - s.keptUnits mode) < divisor) := by
  obtain ⟨divisor, tokens, hpos, hgroup, hkept⟩ := exists_group_units hunits hinside mode
  rw [coarsen_eq hpos] at hgroup
  refine ⟨divisor, _, hpos, hgroup, rfl, hkept, rfl, ?_⟩
  rw [← hkept]
  exact eq_floor_iff hpos

/-- A note between the rests of two staves, which it overlaps. -/
def relieved : Slot Rat where
  index := 0
  fragments := [
    { offset := 0, duration := 4, units := 4 },
    { offset := 2, duration := 4, pitch := some 0, units := 4, offsetUnits := 2 },
    { offset := 4, duration := 4, units := 4, offsetUnits := 4 }]
  unit := 1
  target := 8

/-- The rests keep what sticks out on either side of the note. -/
theorem group_keeps_relieved :
    (∃ (divisor : Int) (s' : Slot Rat), 0 < divisor ∧ relieved.group .timing = .ok s' ∧
      s'.unit = relieved.unit * divisor ∧
      s'.units * divisor = relieved.keptUnits .timing ∧
      s'.target = ⌊(relieved.target : Rat) / divisor + 1 / 2⌋ ∧
      (s'.units = s'.target ↔ -divisor ≤ 2 * (relieved.target - relieved.keptUnits .timing) ∧
        2 * (relieved.target - relieved.keptUnits .timing) < divisor)) ∧
    relieved.keptUnits .timing = 8 ∧
    relieved.group .timing = .ok { relieved with
      tokens := [.rest 1, .note [0] 2, .rest 1], unit := 2, target := 4 } := by
  have hlaid : relieved.laid .timing =
      [⟨0, 2, [], true, 4⟩, ⟨2, 4, [0], false, 6⟩, ⟨6, 2, [], true, 8⟩] := by
    cbv
  have hdivisor : relieved.divisor .timing = 2 := by
    rw [divisor, hlaid]
    rfl
  have hlasting : relieved.Lasting .timing := Counted.lasting ⟨by simp [relieved], by decide⟩ _
  refine ⟨group_keeps (by decide) (by decide) .timing, by decide, ?_⟩
  rw [hlasting.group_eq, hlaid, hdivisor]
  norm_num [relieved, Span.token]

/-- A note in the middle of a rest. -/
def interrupted : Slot Rat where
  index := 0
  fragments := [
    { offset := 0, duration := 2000, units := 4 },
    { offset := 500, duration := 500, pitch := some 0, units := 1, offsetUnits := 1 }]
  unit := 500
  target := 4

/-- A rest is not laid again behind a note that begins in it, so the tokens of a covered bar need
not have its full length. -/
theorem not_forall_covered_keeps :
    ¬ ∀ (mode : ChordMode) (s : Slot Rat), (∀ f ∈ s.fragments, 1 ≤ f.units) → s.Inside →
      (∀ time, 0 ≤ time → time < s.target → ∃ f ∈ s.fragments, f.HasUnit time) →
        ∃ s', s.group mode = .ok s' ∧ s'.units = s'.target := by
  intro hall
  have hlaid : interrupted.laid .timing = [⟨0, 1, [], true, 4⟩, ⟨1, 1, [0], false, 2⟩] := by
    cbv
  have hgroup : interrupted.group .timing =
      .ok { interrupted with tokens := [.rest 1, .note [0] 1] } := by
    unfold group
    rw [← laid, hlaid]
    rfl
  have hcovered : ∀ time, 0 ≤ time → time < interrupted.target →
      ∃ f ∈ interrupted.fragments, f.HasUnit time :=
    fun time hstart hstop => ⟨_, List.mem_cons_self, hstart, hstop⟩
  obtain ⟨s', heq, hunits⟩ := hall .timing interrupted (by decide) (by decide) hcovered
  rw [hgroup] at heq
  obtain rfl := Except.ok.inj heq
  -- The tokens last two units of four.
  exact absurd hunits (by decide)

/-- A bar that its fragments cover has its full length, if no rest outlasts the notes that begin in
it. -/
theorem units_eq_target_of_covered {mode : ChordMode} (hunits : ∀ f ∈ s.fragments, 1 ≤ f.units)
    (hinside : s.Inside) (htarget : 0 ≤ s.target)
    (hcovered : ∀ time, 0 ≤ time → time < s.target → ∃ f ∈ s.fragments, f.HasUnit time)
    (hsounds : ∀ r ∈ s.fragments, r.pitch = none → ∀ time, r.HasUnit time →
      ∀ g ∈ NoteGroup.ofFragments mode s.fragments, r.offsetUnits < g.start → g.start ≤ time →
        ∃ g' ∈ NoteGroup.ofFragments mode s.fragments, g'.Has time) :
    ∃ s', s.group mode = .ok s' ∧ s'.units = s'.target := by
  have hkept : ∀ n < s.target.toNat, s.Keeps mode n := by
    intro n hn
    obtain ⟨f, hf, hhas⟩ := hcovered n (by omega) (by omega)
    cases hpitch : f.pitch with
    | some p => exact .inl (NoteGroup.exists_has mode hf (by simp [hpitch]) hhas)
    | none =>
      by_cases hbegun : ∃ g ∈ NoteGroup.ofFragments mode s.fragments,
          f.offsetUnits < g.start ∧ g.start ≤ n
      · obtain ⟨g, hg, hstart, hle⟩ := hbegun
        exact .inl (hsounds f hf hpitch n hhas g hg hstart hle)
      · exact .inr ⟨f, hf, hpitch, hhas, fun g hg hin => hbegun ⟨g, hg, hin⟩⟩
  have hall : (s.keptUnits mode : Int) = s.target := by
    rw [keptUnits, Nat.count_iff_forall.mpr hkept, Int.toNat_of_nonneg htarget]
  obtain ⟨divisor, s', hpos, hgroup, -, -, -, hiff⟩ := group_keeps hunits hinside mode
  refine ⟨s', hgroup, hiff.mpr ?_⟩
  rw [hall, sub_self]
  omega

end Slot

end PatternScore
