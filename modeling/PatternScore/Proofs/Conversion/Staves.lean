import PatternScore.Proofs.Conversion.ExactTiming

/-!
# Staves that are written in full

Where the notes and rests of every staff fill every bar, the events of all staves together are
written in layers, one for each staff (`FullyWritten.layers`), and no event lasts into a bar behind
its own. So nothing is lost when they are cut into bars, and however the staves overlap, the bars
come out full, every note begins on time, and silence is played exactly where every staff rests
(`build_staves`).
-/

namespace PatternScore

/-- Events of a staff that are written together: a rest, or notes that begin and last alike. -/
structure StaffChord where
  /-- When they begin. -/
  onset : Rat
  /-- How long they last. -/
  duration : Rat
  /-- They are silence. -/
  isRest : Bool
  /-- The events. -/
  events : List (Event Rat)
  /-- There is at least one. -/
  events_ne_nil : events ≠ []
  /-- All begin together. -/
  onset_eq : ∀ e ∈ events, e.onset = onset
  /-- All last alike. -/
  duration_eq : ∀ e ∈ events, e.duration = duration
  /-- All are silence, or none of them. -/
  isRest_eq : ∀ e ∈ events, e.isRest = isRest

namespace StaffChord

/-- An event with others that are written like it. -/
def ofEvents (e : Event Rat) (others : List (Event Rat)) (h : ∀ f ∈ others,
    f.onset = e.onset ∧ f.duration = e.duration ∧ f.isRest = e.isRest) : StaffChord :=
  { onset := e.onset
    duration := e.duration
    isRest := e.isRest
    events := e :: others
    events_ne_nil := List.cons_ne_nil e others
    onset_eq := List.forall_mem_cons.mpr ⟨rfl, fun f hf => (h f hf).1⟩
    duration_eq := List.forall_mem_cons.mpr ⟨rfl, fun f hf => (h f hf).2.1⟩
    isRest_eq := List.forall_mem_cons.mpr ⟨rfl, fun f hf => (h f hf).2.2⟩ }

variable {c : StaffChord} {e : Event Rat}

/-- When the chord stops. -/
def stop (c : StaffChord) : Rat :=
  c.onset + c.duration

/-- The events stop with their chord. -/
lemma stop_eq (he : e ∈ c.events) : e.stop = c.stop := by
  rw [Event.stop, c.onset_eq e he, c.duration_eq e he]
  rfl

/-- One of the events. -/
def first (c : StaffChord) : Event Rat :=
  c.events.head c.events_ne_nil

/-- A chord has at least one event. -/
lemma first_mem (c : StaffChord) : c.first ∈ c.events :=
  List.head_mem _

/-- The first event is silent if the chord is. -/
lemma isRest_first (c : StaffChord) : c.first.isRest = c.isRest :=
  c.isRest_eq _ c.first_mem

/-- An instant belongs to an event if it belongs to the chord. -/
lemma has_iff (he : e ∈ c.events) {time : Rat} :
    e.Has time ↔ c.onset ≤ time ∧ time < c.stop := by
  rw [Event.Has, c.onset_eq e he, stop_eq he]

end StaffChord

namespace ExactTiming

variable {p : VoicePlan Rat} (t : ExactTiming p)

/-- Events that are the staves of some bars, each of which is written in full. -/
structure FullyWritten (bars : Nat) (staves : List (List StaffChord)) (events : List (Event Rat)) :
    Prop where
  /-- The events are those of all staves together. -/
  perm : events.Perm (staves.flatMap fun staff => staff.flatMap StaffChord.events)
  /-- They come in the order of their onsets. -/
  sorted : events.Pairwise fun e f => e.onset ≤ f.onset
  /-- Every staff goes from the first bar to the end of the last one without gaps. -/
  fills : ∀ staff ∈ staves, Tiles StaffChord.onset StaffChord.stop 0 staff (bars * t.length)
  /-- Nothing crosses a bar line. -/
  inBar : ∀ staff ∈ staves, ∀ c ∈ staff, ∃ bar : Nat,
    bar * t.length ≤ c.onset ∧ c.stop ≤ (bar + 1) * t.length
  /-- Everything keeps to the steps. -/
  steps : ∀ staff ∈ staves, ∀ c ∈ staff,
    Units.IsWhole t.step c.onset ∧ Units.IsWhole t.step c.duration
  /-- No rest is too short to be kept. -/
  rests : ∀ staff ∈ staves, ∀ c ∈ staff, c.isRest = true → t.epsilon ≤ c.duration
  /-- Notes with one mark of the source begin and last alike, where that makes a chord. -/
  chords : p.policy.chordMode = .group → ∀ e ∈ events, ∀ f ∈ events, e.isRest = false →
    f.isRest = false → e.chord.isSome → e.chord = f.chord →
    e.onset = f.onset ∧ e.duration = f.duration

namespace FullyWritten

variable {t} {bars : Nat} {staves : List (List StaffChord)} {staff : List StaffChord}
  {c : StaffChord} {events : List (Event Rat)} {e : Event Rat}

/-- An event is one of those that are written together somewhere in a staff. -/
lemma mem_iff (h : t.FullyWritten bars staves events) :
    e ∈ events ↔ ∃ staff ∈ staves, ∃ c ∈ staff, e ∈ c.events := by
  rw [h.perm.mem_iff]
  simp

/-- The events keep to the steps. -/
lemma fits (h : t.FullyWritten bars staves events) : ∀ e ∈ events, e.Fits t.step := by
  intro e he
  obtain ⟨staff, hstaff, c, hc, he⟩ := h.mem_iff.mp he
  obtain ⟨hbegin, hlasts, -⟩ := (h.fills staff hstaff).mem hc
  obtain ⟨honset, hduration⟩ := h.steps staff hstaff c hc
  rw [← c.onset_eq e he] at hbegin honset
  rw [← c.duration_eq e he] at hduration
  refine ⟨hbegin, ?_, honset, hduration⟩
  rw [c.duration_eq e he]
  exact pos_of_lt_add_right hlasts

/-- All events are heard. -/
lemma audible_eq (h : t.FullyWritten bars staves events) :
    Event.audible t.epsilon events = events := by
  rw [Event.audible_eq t.epsilon h.sorted, List.filter_eq_self]
  intro e he
  have hduration := (h.fits e he).duration_pos
  obtain ⟨staff, hstaff, c, hc, hmem⟩ := h.mem_iff.mp he
  by_cases hnote : e.pitch.isSome
  · exact Event.isAudible_of_note hduration hnote
  · have hrest : e.isRest = true := by simpa [Event.isRest] using hnote
    have hlong : t.epsilon ≤ e.duration := by
      rw [c.duration_eq e hmem]
      exact h.rests staff hstaff c hc ((c.isRest_eq e hmem).symm.trans hrest)
    have hlasts : ¬ e.duration ≤ Scalar.zero := not_le.mpr hduration
    have hkept : ¬ e.duration < t.epsilon := not_lt.mpr hlong
    simp [Event.isAudible, hlasts, hkept]

/-- The events are written in layers, one for each staff. -/
lemma layers (h : t.FullyWritten bars staves events) :
    Grid.Layers (bars * t.length) events := by
  classical
  intro e he
  obtain ⟨staff, hstaff, c, hc, hmem⟩ := h.mem_iff.mp he
  -- One event of every chord of the staff, and of the chord of `e` this one.
  let chosen (c' : StaffChord) : Event Rat := if c' = c then e else c'.first
  have hchosen (c' : StaffChord) : chosen c' ∈ c'.events := by
    by_cases heq : c' = c
    · rw [heq]
      simpa [chosen] using hmem
    · simpa [chosen, heq] using c'.first_mem
  refine ⟨staff.map chosen, List.mem_map.mpr ⟨c, hc, if_pos rfl⟩, fun f hf => ?_, ?_⟩
  · obtain ⟨c', hc', rfl⟩ := List.mem_map.mp hf
    exact h.mem_iff.mpr ⟨staff, hstaff, c', hc', hchosen c'⟩
  · exact (h.fills staff hstaff).map strictMono_id (fun c' _ => c'.onset_eq _ (hchosen c'))
      fun c' _ => StaffChord.stop_eq (hchosen c')

/-- No event lasts into a bar behind the one in which a later event begins. -/
lemma settled (h : t.FullyWritten bars staves events) : t.grid.Settled events := by
  refine h.sorted.imp_of_mem fun {e f} he hf hle => ?_
  obtain ⟨staff, hstaff, c, hc, hmem⟩ := h.mem_iff.mp he
  obtain ⟨bar, hbegin, hend⟩ := h.inBar staff hstaff c hc
  rw [← c.onset_eq e hmem] at hbegin
  rw [← StaffChord.stop_eq hmem] at hend
  have htolerance := t.steps.tolerance_nonneg
  have hbefore : t.grid.barBefore e.stop ≤ bar :=
    (t.steps.barBefore_le_iff (h.fits e he).stop).mpr hend
  have hbehind : bar ≤ t.grid.barOf f.onset := by
    rw [Grid.le_barOf_iff t.steps.usable (h.fits f hf).onset_nonneg]
    exact (hbegin.trans hle).trans (le_add_of_nonneg_right htolerance)
  exact hbefore.trans hbehind

/-- The parts of notes with one mark begin and last alike, where that makes a chord. -/
lemma chorded (h : t.FullyWritten bars staves events) (bar : Nat) :
    Slot.Chorded p.policy.chordMode (t.grid.barAt events bar).fragments := by
  intro hmode f hf f' hf' hnote hnote' hmark hsame
  obtain ⟨e, he, hpiece⟩ := List.mem_filterMap.mp hf
  obtain ⟨e', he', hpiece'⟩ := List.mem_filterMap.mp hf'
  obtain ⟨hoffset, hstop, -, hpitch, hchord⟩ := Grid.of_piece hpiece
  obtain ⟨hoffset', hstop', -, hpitch', hchord'⟩ := Grid.of_piece hpiece'
  rw [Fragment.isRest, hpitch] at hnote
  rw [Fragment.isRest, hpitch'] at hnote'
  rw [hchord] at hmark hsame
  rw [hchord'] at hsame
  obtain ⟨honset, hduration⟩ := h.chords hmode e he e' he' hnote hnote' hmark hsame
  have hend : e.stop = e'.stop := by
    rw [Event.stop, honset, hduration]
    rfl
  have hbegin : f.offset = f'.offset := by rw [hoffset, hoffset', honset]
  have hends : f.stop = f'.stop := by rw [hstop, hstop', hend]
  refine ⟨hbegin, ?_⟩
  rw [Fragment.stop, Fragment.stop, hbegin] at hends
  exact add_left_cancel hends

/-- The events end with the last bar, and nothing of them is lost. -/
lemma exists_written (h : t.FullyWritten bars staves events) (hne : events ≠ []) :
    ∃ last, last.stop = bars * t.length ∧ t.grid.Written t.step events last := by
  obtain ⟨e, he⟩ := List.exists_mem_of_ne_nil events hne
  obtain ⟨layer, hmem, hsub, htiles⟩ := h.layers e he
  obtain ⟨last, hlast, hstop⟩ := htiles.exists_stop_eq (List.ne_nil_of_mem hmem)
  refine ⟨last, hstop, h.fits, h.settled, hsub last hlast, fun f hf => ?_,
    fun time hstart hend => ?_⟩
  · obtain ⟨layer', hmem', -, htiles'⟩ := h.layers f hf
    rw [hstop]
    exact (htiles'.mem hmem').2.2
  · rw [hstop] at hend
    obtain ⟨f, hf, hhas⟩ := htiles.exists_mem hstart hend
    exact ⟨f, hsub f hf, hhas⟩

/-- The events are cut into as many bars as there are. -/
lemma cut_eq (h : t.FullyWritten bars staves events) (hgaps : p.policy.fillGaps = false)
    (hne : events ≠ []) : t.grid.cut (Event.audible t.epsilon events) =
      (List.range bars).map (t.grid.markedBar events) := by
  obtain ⟨last, hstop, hwritten⟩ := h.exists_written hne
  have hlast := h.fits last hwritten.last_mem
  have hend : 0 < last.stop := hlast.onset_nonneg.trans_lt hlast.onset_lt_stop
  have hlength : 0 < t.grid.length := t.length_pos
  have hstop' : last.stop = bars * t.grid.length := hstop
  have hbars : 0 < bars := by
    rw [hstop'] at hend
    exact_mod_cast pos_of_mul_pos_left hend hlength.le
  have hnumber : t.grid.barBefore last.stop + 1 = bars := by
    have hle : t.grid.barBefore last.stop ≤ bars - 1 := by
      rw [t.steps.barBefore_le_iff hlast.stop, hstop', Nat.cast_pred hbars, sub_add_cancel]
    have hge : bars - 1 ≤ t.grid.barBefore last.stop := by
      rw [t.steps.le_barBefore_iff hend hlast.stop, hstop', Nat.cast_pred hbars]
      linarith
    omega
  have hending : t.grid.ending last.stop = [] := by
    rw [Grid.ending, if_neg]
    have hline : ((t.grid.barBefore last.stop : Rat) + 1) = bars := by exact_mod_cast hnumber
    rw [hline, hstop']
    exact lt_irrefl _
  have hfilled : t.grid.filled 0 events = events := Grid.filled_eq hgaps 0 events
  rw [← hfilled] at hwritten
  have hcut := hwritten.cut_eq_map t.steps
    (fun e he => ⟨(h.fits e he).onset_nonneg, (h.fits e he).duration_pos⟩) t.shift?_grid
  rw [hnumber, hending, hfilled, List.append_nil] at hcut
  rw [h.audible_eq]
  exact hcut h.layers

/-- No note sounds where every staff rests. -/
lemma silent_iff (h : t.FullyWritten bars staves events) {time : Rat} (hstart : 0 ≤ time)
    (hend : time < bars * t.length) : (∀ e ∈ events, e.Has time → e.isRest = true) ↔
      ∀ staff ∈ staves, ∃ c ∈ staff, c.isRest = true ∧ c.onset ≤ time ∧ time < c.stop := by
  constructor
  · intro hsilent staff hstaff
    obtain ⟨c, hc, hin⟩ := (h.fills staff hstaff).exists_mem hstart hend
    refine ⟨c, hc, ?_, hin⟩
    rw [← c.isRest_first]
    exact hsilent c.first (h.mem_iff.mpr ⟨staff, hstaff, c, hc, c.first_mem⟩)
      ((StaffChord.has_iff c.first_mem).mpr hin)
  · intro hrests e he hhas
    obtain ⟨staff, hstaff, c, hc, hmem⟩ := h.mem_iff.mp he
    obtain ⟨c', hc', hrest, hin⟩ := hrests staff hstaff
    have hsame : c = c' :=
      (h.fills staff hstaff).eq_of_mem hc hc' ((StaffChord.has_iff hmem).mp hhas) hin
    rw [c.isRest_eq e hmem, hsame]
    exact hrest

/-- If there are no events, there are no bars of staves. -/
lemma bars_eq_zero (h : t.FullyWritten bars staves []) (hstaves : staves ≠ []) : bars = 0 := by
  obtain ⟨staff, hstaff⟩ := List.exists_mem_of_ne_nil staves hstaves
  have hnil : staff = [] := List.eq_nil_iff_forall_not_mem.mpr fun c hc =>
    List.not_mem_nil (h.mem_iff.mpr ⟨staff, hstaff, c, hc, c.first_mem⟩)
  have hzero : (0 : Rat) = bars * t.length := by
    have hfills := h.fills staff hstaff
    rw [hnil] at hfills
    exact hfills
  have hbars := (mul_eq_zero.mp hzero.symm).resolve_right t.length_pos.ne'
  exact_mod_cast hbars

/-- The bars perform the events. -/
lemma exists_performs (h : t.FullyWritten bars staves events) (hgaps : p.policy.fillGaps = false) :
    ∃ slots, p.build events = .ok slots ∧ Slot.Performs t.length events slots ∧
      slots.length ≤ bars ∧ (staves ≠ [] → slots.length = bars) := by
  by_cases hempty : events = []
  · subst hempty
    refine ⟨[], ?_, Slot.performs_nil t.length, Nat.zero_le _, fun hstaves => ?_⟩
    · rw [t.build_eq, h.audible_eq, Grid.cut_nil t.steps.usable t.shift?_grid]
      rfl
    · exact (h.bars_eq_zero hstaves).symm
  · obtain ⟨slots, hbuild, hperforms, -⟩ := t.exists_performance (h.cut_eq hgaps hempty) h.layers
      hempty h.fits fun bar _ => h.chorded bar
    have hcount : ((List.range bars).map slots).length = bars := by simp
    exact ⟨_, hbuild, hperforms, hcount.le, fun _ => hcount⟩

end FullyWritten

/-- Staves that are written in full are converted without warnings, bar for bar. Every note begins
on time, and silence is played exactly where every staff rests. -/
theorem build_staves (hgaps : p.policy.fillGaps = false) {bars : Nat}
    {staves : List (List StaffChord)} {events : List (Event Rat)}
    (h : t.FullyWritten bars staves events) :
    ∃ slots, p.build events = .ok slots ∧ (staves ≠ [] → slots.length = bars) ∧
      (∀ s ∈ slots, s.units = s.target) ∧ (∀ name, Slot.checkAll name slots = .ok []) ∧
      Tiles Played.start Played.stop 0 (Slot.play t.length slots) (slots.length * t.length) ∧
      (∀ e ∈ events, ∀ pitch, e.pitch = some pitch →
        ∃ x ∈ Slot.play t.length slots, x.start = e.onset ∧ x.Sounds pitch) ∧
      ∀ time, 0 ≤ time → time < slots.length * t.length →
        ((∃ x ∈ Slot.play t.length slots, x.Rests time) ↔
          ∀ staff ∈ staves, ∃ c ∈ staff, c.isRest = true ∧ c.onset ≤ time ∧ time < c.stop) := by
  obtain ⟨slots, hbuild, hperforms, hle, hcount⟩ := h.exists_performs hgaps
  refine ⟨slots, hbuild, hcount, hperforms.units_eq,
    Slot.checkAll_eq hperforms.units_eq hperforms.writable, hperforms.tiles, hperforms.sounds,
    fun time hstart hend => ?_⟩
  have hend' : time < bars * t.length := by
    have hle' : (slots.length : Rat) ≤ bars := by exact_mod_cast hle
    have hlength := t.length_pos
    exact hend.trans_le (by gcongr)
  rw [hperforms.silent time hstart hend, h.silent_iff hstart hend']

/-- Two staves, of which each rests while the other plays, and both in between. -/
theorem build_two_staves :
    let low : Event Rat := { onset := 0, duration := 500, pitch := some 0, chord := some .nil }
    let high : Event Rat := { onset := 0, duration := 500, pitch := some 4, chord := some .nil }
    let after : Event Rat := { onset := 500, duration := 1500 }
    let before : Event Rat := { onset := 0, duration := 1000 }
    let answer : Event Rat := { onset := 1000, duration := 1000, pitch := some 7 }
    ∃ slots, (VoicePlan.standard
          { fillGaps := false, chordMode := .group, quantizeMode := .fixed }).build
        [before, low, high, after, answer] = .ok slots ∧ slots.length = 1 ∧
      (∀ s ∈ slots, s.units = s.target) ∧ (∀ name, Slot.checkAll name slots = .ok []) ∧
      ∃ x ∈ Slot.play 2000 slots, x.start = 1000 ∧ x.Sounds 7 := by
  intro low high after before answer
  let t := ExactTiming.standard
    { fillGaps := false, chordMode := .group, quantizeMode := .fixed } rfl 1 (by decide) (by decide)
  let upper : List StaffChord :=
    [.ofEvents before [] (by simp), .ofEvents answer [] (by simp)]
  let lower : List StaffChord :=
    [.ofEvents low [high] (by simp [low, high, Event.isRest]), .ofEvents after [] (by simp)]
  have hstep : t.step = 500 := by
    change (2000 : Rat) / ((4 : Int) : Rat) / ((1 : Nat) : Rat) = _
    norm_num
  have hlength : t.length = 2000 := rfl
  have hepsilon : t.epsilon = 10 := rfl
  have hwhole : Units.IsWhole 500 0 ∧ Units.IsWhole 500 500 ∧ Units.IsWhole 500 1000 ∧
      Units.IsWhole 500 1500 := by
    refine ⟨⟨0, ?_⟩, ⟨1, ?_⟩, ⟨2, ?_⟩, ⟨3, ?_⟩⟩ <;> norm_num
  have hwritten : t.FullyWritten 1 [upper, lower] [before, low, high, after, answer] := by
    refine ⟨?_, ?_, ?_, ?_, ?_, ?_, ?_⟩
    · have hswap : ([low, high, after] ++ [answer]).Perm ([answer] ++ [low, high, after]) :=
        List.perm_append_comm
      exact hswap.cons before
    · simp [before, low, high, after, answer]
      norm_num
    · simp [upper, lower, before, answer, low, after, StaffChord.ofEvents, Tiles, StaffChord.stop,
        hlength]
      norm_num
    · rw [hlength]
      have hfirst : ∀ staff ∈ [upper, lower], ∀ c ∈ staff, 0 ≤ c.onset ∧ c.stop ≤ 2000 := by
        simp [upper, lower, before, answer, low, after, StaffChord.ofEvents, StaffChord.stop]
        norm_num
      intro staff hstaff c hc
      refine ⟨0, ?_⟩
      simpa using hfirst staff hstaff c hc
    · rw [hstep]
      simp [upper, lower, before, answer, low, after, StaffChord.ofEvents, hwhole]
    · rw [hepsilon]
      simp [upper, lower, before, answer, low, after, StaffChord.ofEvents, Event.isRest]
      norm_num
    · simp [before, low, high, after, answer, Event.isRest]
  obtain ⟨slots, hbuild, hcount, hunits, hcheck, -, hsounds, -⟩ := t.build_staves rfl hwritten
  exact ⟨slots, hbuild, hcount (by simp), hunits, hcheck, hsounds answer (by simp) 7 rfl⟩

end ExactTiming

end PatternScore
