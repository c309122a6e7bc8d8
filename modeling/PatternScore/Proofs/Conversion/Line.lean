import PatternScore.Proofs.Conversion.ExactTiming

/-!
# A single line is played as it was written

In a single line no event overlaps another. Where silence is filled, the events of a line are filled
up to a single layer (`exists_tiles_filled`) that goes on to the end of the last bar. So every stage
is exact: the bars play the notes of the line, cut at the bar lines, and silence everywhere else
(`build_line`).
-/

namespace PatternScore

/-! ## Silence between the events of a line -/

namespace Grid

variable {g : Grid Rat} {step expected : Rat} {events : List (Event Rat)}

/-- The events of a line are filled up to a single layer. -/
lemma exists_tiles_filled (hsteps : g.Steps step) (hfill : g.fillGaps = true)
    (hfits : ∀ e ∈ events, e.Fits step) (hordered : events.Pairwise fun e f => e.stop ≤ f.onset)
    (hexpected : 0 ≤ expected) (hwhole : Units.IsWhole step expected)
    (hbehind : ∀ e ∈ events, expected ≤ e.onset) :
    ∃ stop, Tiles Event.onset Event.stop expected (g.filled expected events) stop ∧
      ∀ e ∈ g.filled expected events, e.Fits step := by
  induction events generalizing expected with
  | nil => exact ⟨expected, rfl, fun _ h => absurd h List.not_mem_nil⟩
  | cons e rest ih =>
    obtain ⟨he, hrest⟩ := List.forall_mem_cons.mp hfits
    obtain ⟨hafter, hlater⟩ := List.pairwise_cons.mp hordered
    have hbegin := hbehind e List.mem_cons_self
    have hstop : expected ≤ e.stop := hbegin.trans he.onset_lt_stop.le
    obtain ⟨stop, htiles, hfitsRest⟩ :=
      ih hrest hlater (hexpected.trans hstop) he.stop hafter
    have hmax : max expected e.stop = e.stop := max_eq_right hstop
    rw [filled, hfill, Bool.true_and, hmax]
    split
    · rename_i hgap
      have hlt : expected < e.onset := by
        have hlt := of_decide_eq_true hgap
        have htolerance := hsteps.tolerance_nonneg
        linarith
      refine ⟨stop, ⟨rfl, ?_, ?_⟩, ?_⟩
      · rw [onset_silence, stop_silence]
        exact hlt
      · rw [stop_silence]
        exact ⟨rfl, he.onset_lt_stop, htiles⟩
      · refine List.forall_mem_cons.mpr ⟨⟨hexpected, sub_pos.mpr hlt, hwhole, ?_⟩,
          List.forall_mem_cons.mpr ⟨he, hfitsRest⟩⟩
        exact he.onset.sub hwhole
    · rename_i htouch
      have hle : e.onset ≤ expected := by
        refine hsteps.le_of_le_add he.onset hwhole (not_lt.mp fun hlt => htouch ?_)
        exact decide_eq_true hlt
      exact ⟨stop, ⟨le_antisymm hle hbegin, he.onset_lt_stop, htiles⟩,
        List.forall_mem_cons.mpr ⟨he, hfitsRest⟩⟩

/-- The silence up to the end of a bar keeps to the steps. -/
lemma fits_ending (hsteps : g.Steps step) {time : Rat} (htime : 0 ≤ time)
    (hwhole : Units.IsWhole step time) : ∀ e ∈ g.ending time, e.Fits step := by
  intro e he
  have hline := hsteps.line (g.barBefore time + 1)
  push_cast at hline
  unfold ending at he
  split at he
  · rename_i hlt
    rw [List.mem_singleton.mp he]
    exact ⟨htime, sub_pos.mpr hlt, hwhole, hline.sub hwhole⟩
  · cases he

/-- The events of a line are filled up to a single layer that ends with a bar. -/
lemma exists_layer (hsteps : g.Steps step) (hfill : g.fillGaps = true)
    (hfits : ∀ e ∈ events, e.Fits step) (hordered : events.Pairwise fun e f => e.stop ≤ f.onset)
    (hne : events ≠ []) :
    ∃ last, g.Written step (g.filled 0 events) last ∧
      Tiles Event.onset Event.stop 0 (g.filled 0 events ++ g.ending last.stop)
        ((g.barBefore last.stop + 1 : Nat) * g.length) ∧
      ∀ e ∈ g.filled 0 events ++ g.ending last.stop, e.Fits step := by
  obtain ⟨stop, htiles, hfitsFilled⟩ := exists_tiles_filled hsteps hfill hfits hordered le_rfl
    (Units.isWhole_zero step) fun e he => (hfits e he).onset_nonneg
  obtain ⟨e, he⟩ := List.exists_mem_of_ne_nil events hne
  obtain ⟨last, hlast, rfl⟩ := htiles.exists_stop_eq (List.ne_nil_of_mem (mem_filled he 0))
  have hfitsLast := hfitsFilled last hlast
  have hend : 0 ≤ last.stop := hfitsLast.onset_nonneg.trans hfitsLast.onset_lt_stop.le
  refine ⟨last, Written.of_tiles hsteps hfitsFilled htiles hlast,
    htiles.append (tiles_ending hsteps hfitsLast.stop), fun f hf => ?_⟩
  rcases List.mem_append.mp hf with hf | hf
  · exact hfitsFilled f hf
  · exact fits_ending hsteps hend hfitsLast.stop f hf

/-- The notes of a layer that was filled up are the notes of the line. -/
lemma mem_layer_iff {e : Event Rat} (hnote : e.pitch.isSome) (time : Rat) :
    e ∈ g.filled 0 events ++ g.ending time ↔ e ∈ events := by
  constructor
  · intro he
    rcases List.mem_append.mp he with he | he
    · exact mem_of_mem_filled he hnote
    · unfold ending at he
      split at he
      · rw [List.mem_singleton.mp he] at hnote
        cases hnote
      · cases he
  · intro he
    exact List.mem_append_left _ (mem_filled he 0)

end Grid

/-! ## The bars of a line -/

/-- What the bars of a voice play of a line. -/
structure Slot.PlaysLine (length : Rat) (events : List (Event Rat)) (slots : List (Slot Rat)) :
    Prop where
  /-- They perform the events. -/
  performs : Slot.Performs length events slots
  /-- The bars go on to the end of every note. -/
  stop_le : ∀ e ∈ events, e.pitch.isSome → e.stop ≤ slots.length * length
  /-- The notes of the line are heard, cut at the bar lines. -/
  tones_eq : (Slot.play length slots).filterMap Played.tone? =
    events.flatMap (Event.tones length slots.length)

/-- No bars play a line without notes. -/
lemma Slot.playsLine_nil {length : Rat} {events : List (Event Rat)}
    (hrests : ∀ e ∈ events, ¬ e.pitch.isSome) : Slot.PlaysLine length events [] := by
  refine ⟨(Slot.performs_nil length).congr fun e hnote => ?_,
    fun e he hnote => absurd hnote (hrests e he), ?_⟩
  · exact ⟨fun he => absurd he List.not_mem_nil, fun he => absurd hnote (hrests e he)⟩
  · have htones : events.flatMap (Event.tones length 0) = [] :=
      List.flatMap_eq_nil_iff.mpr fun _ _ => rfl
    exact htones.symm

namespace ExactTiming

variable {p : VoicePlan Rat} (t : ExactTiming p) {events heard : List (Event Rat)}

/-- A line of which something is heard is converted, and its bars play it. -/
lemma exists_playsLine (hfill : p.policy.fillGaps = true) (hmode : p.policy.chordMode = .timing)
    (hfits : ∀ e ∈ events, e.Fits t.step)
    (hordered : events.Pairwise fun e f => e.stop ≤ f.onset)
    (hheard : Event.audible t.epsilon events = heard) (hsub : heard.Sublist events)
    (hnotes : ∀ e, e.pitch.isSome → (e ∈ heard ↔ e ∈ events)) (hne : heard ≠ []) :
    ∃ slots, p.build events = .ok slots ∧ Slot.PlaysLine t.length events slots := by
  have hlength := t.length_pos
  have hfitsHeard : ∀ e ∈ heard, e.Fits t.step := fun e he => hfits e (hsub.subset he)
  obtain ⟨last, hwritten, htiles, hfitsLayer⟩ :=
    Grid.exists_layer t.steps hfill hfitsHeard (hordered.sublist hsub) hne
  set written := t.grid.filled 0 heard ++ t.grid.ending last.stop with hwrittenEq
  set count := t.grid.barBefore last.stop + 1
  have hmem : ∀ e : Event Rat, e.pitch.isSome → (e ∈ written ↔ e ∈ events) := fun e hnote =>
    (Grid.mem_layer_iff hnote last.stop).trans (hnotes e hnote)
  have hlayers : Grid.Layers (count * t.length) written := fun e he => ⟨written, he,
    fun _ h => h, htiles⟩
  have hwrittenNe : written ≠ [] :=
    List.ne_nil_of_mem (List.mem_append_left _ hwritten.last_mem)
  have hcut : t.grid.cut (Event.audible t.epsilon events) =
      (List.range count).map (t.grid.markedBar written) := by
    rw [hheard]
    exact hwritten.cut_eq_map t.steps
      (fun e he => ⟨(hfitsHeard e he).onset_nonneg, (hfitsHeard e he).duration_pos⟩)
      t.shift?_grid hlayers
  have hchorded (fragments : List (Fragment Rat)) :
      Slot.Chorded p.policy.chordMode fragments := fun h => by rw [hmode] at h; cases h
  obtain ⟨bars, hbuild, hperforms, htones⟩ :=
    t.exists_performance hcut hlayers hwrittenNe hfitsLayer fun _ _ => hchorded _
  have hcount : ((List.range count).map bars).length = count := by simp
  have hstop : ∀ e ∈ events, e.pitch.isSome → e.stop ≤ count * t.length := fun e he hnote =>
    (htiles.mem ((hmem e hnote).mpr he)).2.2
  refine ⟨_, hbuild, hperforms.congr hmem, ?_, ?_⟩
  · rw [hcount]
    exact hstop
  · have hplay := hperforms.tiles
    rw [hcount] at hplay ⊢
    refine @Slot.tones_play t.grid events written count bars hlength
      (fun e he => ⟨(hfits e he).onset_nonneg, (hfits e he).onset_lt_stop, hstop e he⟩) hordered
      hmem hplay fun bar hlt => ?_
    exact htones hmode bar hlt (Grid.tiles_bar hlength htiles hlt)

/-- A line whose events keep to the steps is converted without warnings. Its bars play the notes of
the line, cut at the bar lines, and silence everywhere else. -/
theorem build_line (hfill : p.policy.fillGaps = true) (hmode : p.policy.chordMode = .timing)
    (hfits : ∀ e ∈ events, e.Fits t.step)
    (hordered : events.Pairwise fun e f => e.stop ≤ f.onset) :
    ∃ slots, p.build events = .ok slots ∧ (∀ name, Slot.checkAll name slots = .ok []) ∧
      (Slot.play t.length slots).filterMap Played.tone? =
        events.flatMap (Event.tones t.length slots.length) ∧
      (∀ e ∈ events, e.pitch.isSome →
        Tiles Tone.start Tone.stop e.onset (e.tones t.length slots.length) e.stop) ∧
      Tiles Played.start Played.stop 0 (Slot.play t.length slots) (slots.length * t.length) ∧
      ∀ time, 0 ≤ time → time < slots.length * t.length →
        ((∃ x ∈ Slot.play t.length slots, x.Rests time) ↔
          ∀ e ∈ events, e.Has time → e.isRest = true) := by
  have hsorted : events.Pairwise fun e f => e.onset ≤ f.onset := by
    refine hordered.imp_of_mem fun he _ hle => ?_
    exact (hfits _ he).onset_lt_stop.le.trans hle
  have hheard := Event.audible_eq t.epsilon hsorted
  have hnotes : ∀ e : Event Rat, e.pitch.isSome →
      (e ∈ events.filter (Event.isAudible t.epsilon) ↔ e ∈ events) := by
    intro e hnote
    rw [List.mem_filter]
    exact ⟨And.left, fun he => ⟨he, Event.isAudible_of_note (hfits e he).duration_pos hnote⟩⟩
  have hline : ∃ slots, p.build events = .ok slots ∧ Slot.PlaysLine t.length events slots := by
    by_cases hempty : events.filter (Event.isAudible t.epsilon) = []
    · refine ⟨[], ?_, Slot.playsLine_nil fun e he hnote => ?_⟩
      · rw [t.build_eq, hheard, hempty, Grid.cut_nil t.steps.usable t.shift?_grid]
        rfl
      · have hmem := (hnotes e hnote).mpr he
        rw [hempty] at hmem
        cases hmem
    · exact t.exists_playsLine hfill hmode hfits hordered hheard List.filter_sublist hnotes hempty
  obtain ⟨slots, hbuild, hplays⟩ := hline
  refine ⟨slots, hbuild,
    Slot.checkAll_eq hplays.performs.units_eq hplays.performs.writable, hplays.tones_eq,
    fun e he hnote => ?_, hplays.performs.tiles, hplays.performs.silent⟩
  exact Event.tiles_tones t.length_pos (hfits e he).onset_nonneg (hfits e he).onset_lt_stop
    (hplays.stop_le e he hnote) hnote

/-- A triplet note and a note over the bar line, with silence between them. -/
theorem build_triplet_and_tie :
    let triplet : Event Rat := { onset := 0, duration := 500 / 3, pitch := some 0 }
    let tied : Event Rat := { onset := 1500, duration := 1000, pitch := some 4 }
    ∃ slots, (VoicePlan.standard { quantizeMode := .fixed }).build [triplet, tied] = .ok slots ∧
      (∀ name, Slot.checkAll name slots = .ok []) ∧
      (Slot.play 2000 slots).filterMap Played.tone? =
        [triplet, tied].flatMap (Event.tones 2000 slots.length) := by
  intro triplet tied
  let t := ExactTiming.standard { quantizeMode := .fixed } rfl 3 (by decide) (by decide)
  have hstep : t.step = 500 / 3 := by
    change (2000 : Rat) / ((4 : Int) : Rat) / ((3 : Nat) : Rat) = _
    norm_num
  have htriplet : triplet.Fits t.step := by
    rw [hstep]
    refine ⟨le_rfl, ?_, ⟨0, ?_⟩, ⟨1, ?_⟩⟩ <;> norm_num [triplet]
  have htied : tied.Fits t.step := by
    rw [hstep]
    refine ⟨?_, ?_, ⟨9, ?_⟩, ⟨6, ?_⟩⟩ <;> norm_num [tied]
  have hordered : [triplet, tied].Pairwise fun e f => e.stop ≤ f.onset := by
    refine List.pairwise_pair.mpr ?_
    change (0 : Rat) + 500 / 3 ≤ 1500
    norm_num
  obtain ⟨slots, hbuild, hcheck, htones, -⟩ := t.build_line rfl rfl
    (by simp only [List.forall_mem_cons]; exact ⟨htriplet, htied, by simp⟩) hordered
  exact ⟨slots, hbuild, hcheck, htones⟩

end ExactTiming

end PatternScore
