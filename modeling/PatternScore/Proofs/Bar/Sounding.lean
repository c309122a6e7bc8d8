import Mathlib
import PatternScore.Proofs.Bar.Grouping
import PatternScore.Proofs.Bar.NoteGroup

/-!
# What the notes of a bar sound

The notes among a bar's tokens in closed form. The chords of the line begin where the note groups of
the bar do, and each is held as far as a group reaches that has begun, up to the next one; so the
note tokens are what sounds where the groups are played over each other, whatever rests there are
(`Slot.group_notes`). A note that is cut short is held from the beginning of the bar on, so a group
that ends before it sounds up to it. Fragments that begin in the bar have no such group
(`NoteGroup.inBar_eq`).
-/

namespace PatternScore

namespace NoteGroup

/-- A span sounds what a group says. -/
structure SoundsAs (s : Span) (n : NoteGroup) : Prop where
  /-- From its start. -/
  start_eq : s.start = n.start
  /-- To its stop. -/
  stop_eq : s.stop = n.stop
  /-- With its pitches. -/
  pitches_eq : s.pitches = n.pitches

/-- Sustained notes sound what some groups do, if up to each of them the notes reach as far as the
groups. -/
lemma forall₂_sustain {groups : List NoteGroup} {chords : List Span} {sounding : Int}
    (hsorted : chords.Pairwise fun m n => m.start < n.start)
    (hpitches : ∀ n ∈ chords, n.pitches = pitchesAt groups n.start)
    (hreach : ∀ n ∈ chords, ∀ x, reach groups n.start ≤ x ↔
      sounding ≤ x ∧ ∀ m ∈ chords, m.start ≤ n.start → m.reach ≤ x) :
    List.Forall₂ SoundsAs (Span.sustain sounding chords)
      (soundingFrom groups (chords.map (·.start))) := by
  induction chords generalizing sounding with
  | nil => exact .nil
  | cons n rest ih =>
    obtain ⟨hfirst, hrest⟩ := List.pairwise_cons.mp hsorted
    obtain ⟨hpitch, hpitches⟩ := List.forall_mem_cons.mp hpitches
    have hown : reach groups n.start = max sounding n.reach := by
      -- No later note has begun when this one begins.
      refine eq_of_forall_ge_iff fun x => ?_
      rw [hreach n List.mem_cons_self x, max_le_iff, List.forall_mem_cons]
      have hlater : ∀ m ∈ rest, m.start ≤ n.start → m.reach ≤ x := fun m hm hle =>
        absurd (hfirst m hm) (not_lt.mpr hle)
      exact and_congr_right fun _ => ⟨fun hall => hall.1 le_rfl, fun hle => ⟨fun _ => hle, hlater⟩⟩
    refine .cons ⟨rfl, ?_, hpitch⟩ (ih hrest hpitches fun m hm x => ?_)
    · rw [Span.lastingTo_stop]
      show _ = ((rest.map (·.start)).head?.map fun next => min next (reach groups n.start)).getD
        (reach groups n.start)
      rw [hown, List.head?_map, Option.map_map]
      rfl
    · rw [hreach m (List.mem_cons_of_mem _ hm) x, max_le_iff, List.forall_mem_cons, and_assoc]
      have hbegun : n.start ≤ m.start := (hfirst m hm).le
      simp [hbegun]

section Fragments

variable {τ : Type} {mode : ChordMode} {fragments : List (Fragment τ)}

/-- The groups of a bar are the note spans of its fragments. -/
lemma exists_inBar_iff {P : Int → Int → Prop} :
    (∃ g ∈ inBar mode fragments, P g.start g.stop) ↔
      ∃ m ∈ Span.notes (Span.collect mode fragments), P m.start (max 0 m.stop) := by
  unfold inBar
  simp only [List.mem_map, exists_exists_and_eq_and]
  exact exists_iff (P := fun start stop => P start (max 0 stop))

/-- The groups that begin together have the pitches of the note spans that do. -/
lemma mem_pitchesAt_inBar {p time : Int} : p ∈ pitchesAt (inBar mode fragments) time ↔
    ∃ m ∈ Span.notes (Span.collect mode fragments), m.start = time ∧ p ∈ m.pitches := by
  rw [mem_pitchesAt]
  unfold inBar
  simp only [List.mem_map, exists_exists_and_eq_and]
  constructor
  · rintro ⟨g, hg, hstart, hp⟩
    obtain ⟨m, hm, hgroup⟩ := exists_isOf hg
    exact ⟨m, hm, hgroup.start_eq.symm.trans hstart, (hgroup.mem_pitches p).mp hp⟩
  · rintro ⟨m, hm, hstart, hp⟩
    obtain ⟨g, hg, hgroup⟩ := exists_group hm
    exact ⟨g, hg, hgroup.start_eq.trans hstart, (hgroup.mem_pitches p).mpr hp⟩

variable (h : ∀ f ∈ fragments, 1 ≤ f.units)

include h

/-- The chords of a bar begin where its groups do. -/
lemma starts_inBar : starts (inBar mode fragments) =
    (Span.chords (Span.collect mode fragments)).map (·.start) := by
  have hinOrder := Span.inOrder_collect mode h
  apply List.SortedLT.eq_of_mem_iff
  · exact (pairwise_starts _).sortedLT
  · exact (List.pairwise_map.mpr hinOrder.sorted_chords).sortedLT
  · intro time
    rw [mem_starts, exists_inBar_iff (P := fun start _ => start = time), List.mem_map]
    constructor
    · rintro ⟨m, hm, rfl⟩
      obtain ⟨n, hn, hstart, -⟩ := hinOrder.gathers_chords.kept m hm
      exact ⟨n, hn, hstart⟩
    · rintro ⟨n, hn, rfl⟩
      obtain ⟨m, hm, hstart, -⟩ := hinOrder.gathers_chords.reach_from n hn
      exact ⟨m, hm, hstart⟩

/-- A chord sounds the pitches of the groups that begin with it. -/
lemma pitches_chords {n : Span} (hn : n ∈ Span.chords (Span.collect mode fragments)) :
    n.pitches = pitchesAt (inBar mode fragments) n.start := by
  have hinOrder := Span.inOrder_collect mode h
  have hnil : Span.AllFormed [] := fun s hs => absurd hs List.not_mem_nil
  have hformed : n.Formed := (Span.formed_collect mode h).foldl_lay hnil n
    (List.mem_reverse.mp (Span.mem_notes.mp hn).1)
  apply List.SortedLT.eq_of_mem_iff
  · exact hformed.ascending.sortedLT
  · exact (pairwise_pitchesAt _ _).sortedLT
  · intro p
    rw [mem_pitchesAt_inBar]
    exact hinOrder.gathers_chords.mem_pitches n hn p

/-- The groups that have begun with a chord reach as far as the chords that have, and to the
beginning of the bar. -/
lemma reach_inBar_le_iff {n : Span} (hn : n ∈ Span.chords (Span.collect mode fragments)) (x : Int) :
    reach (inBar mode fragments) n.start ≤ x ↔
      0 ≤ x ∧ ∀ m ∈ Span.chords (Span.collect mode fragments), m.start ≤ n.start → m.reach ≤ x := by
  have hinOrder := Span.inOrder_collect mode h
  have hgathers := hinOrder.gathers_chords
  obtain ⟨own, hown, hstart, -⟩ := hgathers.reach_from n hn
  obtain ⟨g, hg, hbegun⟩ : ∃ g ∈ inBar mode fragments, g.start ≤ n.start :=
    (exists_inBar_iff (P := fun start _ => start ≤ n.start)).mpr ⟨own, hown, hstart.le⟩
  rw [← not_iff_not, not_le, lt_reach_iff hg hbegun,
    exists_inBar_iff (P := fun start stop => start ≤ n.start ∧ x < stop)]
  constructor
  · rintro ⟨m, hm, hle, hlt⟩ ⟨hnonneg, hall⟩
    obtain ⟨c, hc, hsame, hreach⟩ := hgathers.kept m hm
    have hbound := hall c hc (hsame.trans_le hle)
    rw [hinOrder.reach_eq m (Span.mem_notes.mp hm).1] at hreach
    omega
  · intro hnot
    by_cases hnonneg : 0 ≤ x
    · push Not at hnot
      obtain ⟨c, hc, hle, hlt⟩ := hnot hnonneg
      obtain ⟨m, hm, hsame, hreach⟩ := hgathers.reach_from c hc
      rw [hinOrder.reach_eq m (Span.mem_notes.mp hm).1] at hreach
      exact ⟨m, hm, hsame.trans_le hle, by omega⟩
    · exact ⟨own, hown, hstart.le, by omega⟩

/-- The notes of the line of a bar sound what its groups do. -/
theorem forall₂_notes_layOut :
    List.Forall₂ SoundsAs (Span.notes (Span.layOut (Span.collect mode fragments)))
      (sounding (inBar mode fragments)) := by
  have hinOrder := Span.inOrder_collect mode h
  rw [hinOrder.notes_layOut_eq, sounding, starts_inBar h]
  exact forall₂_sustain hinOrder.sorted_chords (fun n hn => pitches_chords h hn)
    fun n hn x => reach_inBar_le_iff h hn x

end Fragments

/-- A token is written for what sounds, in units of several of those it is counted in. -/
def WrittenAs (divisor : Int) (n : NoteGroup) (tok : Token) : Prop :=
  ∃ units, tok = .note n.pitches units ∧ units * divisor = n.stop - n.start

end NoteGroup

namespace Slot

variable {τ : Type} {mode : ChordMode} {s : Slot τ}

/-- The note tokens of a line are those of its notes. -/
lemma filter_map_token (line : List Span) (divisor : Int) :
    (line.map fun x => x.token (x.units / divisor)).filter (!·.isRest) =
      (Span.notes line).map fun x => .note x.pitches (x.units / divisor) := by
  rw [List.filter_map, Span.notes]
  have htest : ((!·.isRest) ∘ fun x : Span => x.token (x.units / divisor)) =
      fun x => !x.isRest := by
    funext x
    simp
  rw [htest]
  apply List.map_congr_left
  intro x hx
  have hnote : x.isRest = false := by simpa using (List.mem_filter.mp hx).2
  rw [Span.token, hnote]
  rfl

/-- The note tokens of a bar whose fragments last: there is one for each start of a note group, in
this order; it has the pitches of all groups that begin there, ascending and each once, and lasts up
to the next start, but not beyond the latest end of a group that has begun. The tokens are counted
in units of several of those of the fragments, and the bar is brought to these units. -/
theorem group_notes [Scalar τ] (h : ∀ f ∈ s.fragments, 1 ≤ f.units) :
    ∃ (divisor : Int) (tokens : Bar), 0 < divisor ∧
      s.group mode = (s.coarsen divisor).map (fun s' => { s' with tokens }) ∧
      List.Forall₂ (NoteGroup.WrittenAs divisor)
        (NoteGroup.sounding (NoteGroup.inBar mode s.fragments)) (tokens.filter (!·.isRest)) ∧
      ∀ time, (∃ n ∈ NoteGroup.sounding (NoteGroup.inBar mode s.fragments), n.Has time) ↔
        ∃ g ∈ NoteGroup.inBar mode s.fragments, g.Has time := by
  obtain ⟨divisor, hpos, hdvd, hgroup⟩ := exists_group_eq_coarsen h mode
  have hsounds : List.Forall₂ NoteGroup.SoundsAs (Span.notes (s.laid mode))
      (NoteGroup.sounding (NoteGroup.inBar mode s.fragments)) :=
    NoteGroup.forall₂_notes_layOut h
  refine ⟨divisor, _, hpos, hgroup, ?_, fun time => NoteGroup.exists_sounding_has_iff⟩
  rw [filter_map_token, List.forall₂_map_right_iff]
  apply List.Forall₂.flip
  have hnotes : ∀ x ∈ Span.notes (s.laid mode), divisor ∣ x.units := fun x hx =>
    hdvd x (Span.mem_notes.mp hx).1
  refine ((List.forall₂_and_left _ _).mpr ⟨hnotes, hsounds⟩).imp ?_
  rintro x n ⟨hx, hstart, hstop, hpitches⟩
  refine ⟨x.units / divisor, by rw [hpitches], ?_⟩
  rw [Int.ediv_mul_cancel hx, ← hstart, ← hstop, Span.stop]
  omega

/-- A long note, a chord over it, and a rest under both. -/
def overlapping : Slot Rat where
  index := 0
  fragments := [
    { offset := 0, duration := 4, pitch := some 0, units := 4 },
    { offset := 1, duration := 1, pitch := some 7, chord := some (.number 0), units := 1
      offsetUnits := 1 },
    { offset := 1, duration := 2, pitch := some 4, chord := some (.number 0), units := 2
      offsetUnits := 1 },
    { offset := 2, duration := 3, units := 3, offsetUnits := 2 }]
  unit := 1
  target := 6

/-- The chord is held as long as the long note reaches. -/
theorem group_notes_overlapping :
    (∃ (divisor : Int) (tokens : Bar), 0 < divisor ∧
      overlapping.group .group =
        (overlapping.coarsen divisor).map (fun s' => { s' with tokens }) ∧
      List.Forall₂ (NoteGroup.WrittenAs divisor)
        (NoteGroup.sounding (NoteGroup.inBar .group overlapping.fragments))
        (tokens.filter (!·.isRest)) ∧
      ∀ time, (∃ n ∈ NoteGroup.sounding (NoteGroup.inBar .group overlapping.fragments),
        n.Has time) ↔ ∃ g ∈ NoteGroup.inBar .group overlapping.fragments, g.Has time) ∧
    NoteGroup.sounding (NoteGroup.inBar .group overlapping.fragments) =
      [⟨0, 1, [0]⟩, ⟨1, 4, [4, 7]⟩] ∧
    overlapping.group .group =
      .ok { overlapping with tokens := [.note [0] 1, .note [4, 7] 3, .rest 1] } := by
  have hlaid : overlapping.laid .group =
      [⟨0, 1, [0], false, 4⟩, ⟨1, 3, [4, 7], false, 3⟩, ⟨4, 1, [], true, 5⟩] := by
    cbv
  refine ⟨group_notes (by decide), ?_, ?_⟩
  · cbv
  · unfold group
    rw [← laid, hlaid]
    rfl

/-- Two notes, of which the first ends before the bar begins. -/
def early : Slot Rat where
  index := 0
  fragments := [
    { offset := 0, duration := 1000, pitch := some 0, units := 2, offsetUnits := -5 },
    { offset := 0, duration := 1000, pitch := some 4, units := 2, offsetUnits := 3 }]
  unit := 500
  target := 8

/-- A note that ends before the bar begins is held up to its beginning, so the lengths of the notes
need not be those of their groups. -/
theorem not_forall_written_as_groups :
    ¬ ∀ (mode : ChordMode) (s : Slot Rat), (∀ f ∈ s.fragments, 1 ≤ f.units) →
      ∃ (divisor : Int) (s' : Slot Rat), 0 < divisor ∧ s.group mode = .ok s' ∧
        List.Forall₂ (NoteGroup.WrittenAs divisor)
          (NoteGroup.sounding (NoteGroup.ofFragments mode s.fragments))
          (s'.tokens.filter (!·.isRest)) := by
  intro hall
  have hlaid : early.laid .timing = [⟨-5, 5, [0], false, -3⟩, ⟨3, 2, [4], false, 5⟩] := by
    cbv
  have hgroup : early.group .timing = .ok { early with tokens := [.note [0] 5, .note [4] 2] } := by
    unfold group
    rw [← laid, hlaid]
    rfl
  have hsounding : NoteGroup.sounding (NoteGroup.ofFragments .timing early.fragments) =
      [⟨-5, -3, [0]⟩, ⟨3, 5, [4]⟩] := by
    cbv
  obtain ⟨divisor, s', -, heq, hwritten⟩ := hall .timing early (by decide)
  rw [hgroup] at heq
  obtain rfl := Except.ok.inj heq
  rw [hsounding] at hwritten
  obtain ⟨⟨units, hnote, hlength⟩, -⟩ := List.forall₂_cons.mp hwritten
  obtain rfl := (Token.note.inj hnote).2
  -- The first note would last five units, and two.
  have htwo : (5 : Int) * divisor = 2 := hlength
  omega

end Slot

end PatternScore
