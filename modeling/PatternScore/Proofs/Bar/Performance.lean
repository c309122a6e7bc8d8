import PatternScore.Proofs.Bar.Aligned
import PatternScore.Proofs.Bar.Rendering

/-!
# What the bars of a voice play

The bars are played one after another, so what each of them plays of the parts of the events comes
together to what the voice plays of the events: it fills all bars, every note begins on time, and
silence is played exactly where no note was written (`performs_of_renders`). Where each bar is a
single layer, the notes are heard as they were written, cut at the bar lines (`tones_play`).
-/

namespace PatternScore

/-- An instant belongs to an event. -/
def Event.Has (e : Event Rat) (time : Rat) : Prop :=
  e.onset ≤ time ∧ time < e.stop

namespace Grid

variable {g : Grid Rat} {e : Event Rat} {bar : Nat} {time : Rat}

/-- An instant before the end of the last bar lies in one of the bars. -/
lemma exists_bar_of_lt (hg : g.Usable) {count : Nat} (hstart : 0 ≤ time)
    (hend : time < count * g.length) :
    ∃ bar < count, bar * g.length ≤ time ∧ time < (bar + 1) * g.length := by
  obtain ⟨bar, hbegin, hstop⟩ := Laid.exists_bar_lt hg hstart
  have hlt : (bar : Rat) * g.length < count * g.length := hbegin.trans_lt hend
  exact ⟨bar, by exact_mod_cast lt_of_mul_lt_mul_right hlt hg.length_pos.le, hbegin, hstop⟩

/-- In a bar an event has the instants of its part. -/
lemma exists_piece_has_iff (hbegin : bar * g.length ≤ time) (hend : time < (bar + 1) * g.length) :
    (∃ f, g.piece bar e = some f ∧ f.Has (time - bar * g.length)) ↔ e.Has time := by
  constructor
  · rintro ⟨f, hpiece, hstart, hstop⟩
    obtain ⟨hoffset, hend', -, -, -⟩ := Grid.of_piece hpiece
    rw [hoffset, sub_le_sub_iff_right] at hstart
    rw [hend', sub_lt_sub_iff_right] at hstop
    exact ⟨(le_max_left _ _).trans hstart, hstop.trans_le (min_le_left _ _)⟩
  · rintro ⟨hstart, hstop⟩
    have hle : max e.onset (bar * g.length) ≤ time := max_le hstart hbegin
    have hlt : time < min e.stop ((bar + 1) * g.length) := lt_min hstop hend
    refine ⟨_, Grid.piece_eq rfl rfl (hle.trans_lt hlt), ?_, ?_⟩
    · exact sub_le_sub_right hle _
    · unfold Fragment.stop
      linarith

/-- At an instant the parts in its bar rest if the events do. -/
lemma silent_barAt_iff {events : List (Event Rat)} (hbegin : bar * g.length ≤ time)
    (hend : time < (bar + 1) * g.length) :
    (∀ f ∈ (g.barAt events bar).fragments, f.Has (time - bar * g.length) → f.isRest = true) ↔
      ∀ e ∈ events, e.Has time → e.isRest = true := by
  have hsame {e : Event Rat} {f : Fragment Rat} (hpiece : g.piece bar e = some f) :
      f.isRest = e.isRest := by
    rw [Fragment.isRest, (Grid.of_piece hpiece).2.2.2.1]
    rfl
  constructor
  · intro h e he hhas
    obtain ⟨f, hpiece, hf⟩ := (exists_piece_has_iff hbegin hend).mpr hhas
    rw [← hsame hpiece]
    exact h f (List.mem_filterMap.mpr ⟨e, he, hpiece⟩) hf
  · intro h f hf hhas
    obtain ⟨e, he, hpiece⟩ := List.mem_filterMap.mp hf
    rw [hsame hpiece]
    exact h e he ((exists_piece_has_iff hbegin hend).mp ⟨f, hpiece, hhas⟩)

end Grid

namespace Slot

/-! ## One bar after another -/

section Bars

variable {length : Rat} {count : Nat} {bars : Nat → Slot Rat} {x : Played}

/-- What is played in some bars is played in one of them. -/
lemma mem_play : x ∈ play length ((List.range count).map bars) ↔
    ∃ bar < count, x ∈ (bars bar).played length := by
  simp [play]

/-- Bars that are filled fill the time together. -/
lemma tiles_play (h : ∀ bar < count, Tiles Played.start Played.stop (bar * length)
      ((bars bar).played length) (bar * length + length)) :
    Tiles Played.start Played.stop 0 (play length ((List.range count).map bars))
      (count * length) := by
  induction count with
  | zero =>
    rw [Nat.cast_zero, zero_mul]
    rfl
  | succ count ih =>
    have hbefore := ih fun bar hbar => h bar (hbar.trans (Nat.lt_succ_self count))
    have hlast := h count (Nat.lt_succ_self count)
    have hline : ((count + 1 : Nat) : Rat) * length = count * length + length := by
      push_cast
      ring
    rw [List.range_succ, List.map_append, play, List.flatMap_append, hline]
    refine hbefore.append ?_
    simpa using hlast

/-- At an instant the bar is heard in which it lies. -/
lemma exists_play_rests_iff (hlength : 0 < length)
    (h : ∀ bar < count, Tiles Played.start Played.stop (bar * length)
      ((bars bar).played length) (bar * length + length)) {bar : Nat} (hbar : bar < count)
    {time : Rat} (hbegin : bar * length ≤ time) (hend : time < (bar + 1) * length) :
    (∃ x ∈ play length ((List.range count).map bars), x.Rests time) ↔
      ∃ x ∈ (bars bar).played length, x.Rests time := by
  constructor
  · rintro ⟨x, hx, hrests⟩
    obtain ⟨bar', hbar', hx⟩ := mem_play.mp hx
    obtain ⟨hbegin', -, hend'⟩ := (h bar' hbar').mem hx
    have hupper : (bar' : Rat) * length < (bar + 1) * length :=
      (hbegin'.trans hrests.2.1).trans_lt hend
    have hlower : (bar : Rat) * length < (bar' + 1) * length := by
      have := hrests.2.2
      linarith
    have hupper' : (bar' : Rat) < bar + 1 := lt_of_mul_lt_mul_right hupper hlength.le
    have hlower' : (bar : Rat) < bar' + 1 := lt_of_mul_lt_mul_right hlower hlength.le
    have hle : bar' < bar + 1 := by exact_mod_cast hupper'
    have hge : bar < bar' + 1 := by exact_mod_cast hlower'
    obtain rfl : bar' = bar := by omega
    exact ⟨x, hx, hrests⟩
  · rintro ⟨x, hx, hrests⟩
    exact ⟨x, mem_play.mpr ⟨bar, hbar, hx⟩, hrests⟩

end Bars

/-! ## Events in layers -/

/-- What the bars of a voice play of events that are written in layers. -/
structure Performs (length : Rat) (events : List (Event Rat)) (slots : List (Slot Rat)) : Prop where
  /-- Every bar is as long as a bar. -/
  units_eq : ∀ s ∈ slots, s.units = s.target
  /-- Every token has a written form. -/
  writable : ∀ s ∈ slots, ∀ tok ∈ s.tokens, tok.IsWritable
  /-- The tokens fill the bars. -/
  tiles : Tiles Played.start Played.stop 0 (play length slots) (slots.length * length)
  /-- Every note begins on time. -/
  sounds : ∀ e ∈ events, ∀ p, e.pitch = some p →
    ∃ x ∈ play length slots, x.start = e.onset ∧ x.Sounds p
  /-- Silence is played where no note was written. -/
  silent : ∀ time, 0 ≤ time → time < slots.length * length →
    ((∃ x ∈ play length slots, x.Rests time) ↔ ∀ e ∈ events, e.Has time → e.isRest = true)

/-- No bars perform no events. -/
lemma performs_nil (length : Rat) : Performs length [] [] := by
  refine ⟨by simp, by simp, ?_, by simp, fun time hstart hend => ?_⟩
  · simp [play, Tiles]
  · have hlt : time < 0 := by simpa using hend
    exact absurd hstart (not_le.mpr hlt)

/-- Only the notes matter. -/
lemma Performs.congr {length : Rat} {events others : List (Event Rat)} {slots : List (Slot Rat)}
    (h : Performs length events slots)
    (hnotes : ∀ e, e.pitch.isSome → (e ∈ events ↔ e ∈ others)) : Performs length others slots := by
  have hsub {events others : List (Event Rat)} {time : Rat}
      (hnotes : ∀ e, e.pitch.isSome → (e ∈ events ↔ e ∈ others))
      (hsilent : ∀ e ∈ events, e.Has time → e.isRest = true) :
      ∀ e ∈ others, e.Has time → e.isRest = true := by
    intro e he hhas
    cases hpitch : e.pitch with
    | none =>
      rw [Event.isRest, hpitch]
      rfl
    | some p =>
      have hnote : e.pitch.isSome := by rw [hpitch]; rfl
      exact hsilent e ((hnotes e hnote).mpr he) hhas
  refine ⟨h.units_eq, h.writable, h.tiles, fun e he p hpitch => ?_, fun time hstart hend => ?_⟩
  · have hnote : e.pitch.isSome := by rw [hpitch]; rfl
    exact h.sounds e ((hnotes e hnote).mpr he) p hpitch
  · rw [h.silent time hstart hend]
    exact ⟨hsub hnotes, hsub fun e hnote => (hnotes e hnote).symm⟩

variable {g : Grid Rat} {events : List (Event Rat)} {count : Nat} {bars : Nat → Slot Rat}

/-- Bars that render the parts of events perform the events. -/
theorem performs_of_renders (hg : g.Usable)
    (hwithin : ∀ e ∈ events, 0 ≤ e.onset ∧ e.onset < e.stop ∧ e.stop ≤ count * g.length)
    (hindex : ∀ bar < count, (bars bar).index = bar)
    (hbars : ∀ bar < count, (bars bar).Renders g.length (g.barAt events bar).fragments) :
    Performs g.length events ((List.range count).map bars) := by
  have hlength := hg.length_pos
  have hcount : ((List.range count).map bars).length = count := by simp
  have hcast (bar : Nat) (hbar : bar < count) : ((bars bar).index : Rat) = bar := by
    rw [hindex bar hbar, Int.cast_natCast]
  have htiles (bar : Nat) (hbar : bar < count) : Tiles Played.start Played.stop (bar * g.length)
      ((bars bar).played g.length) (bar * g.length + g.length) := by
    have h := (hbars bar hbar).tiles
    rw [hcast bar hbar] at h
    exact h
  refine ⟨fun s hs => ?_, fun s hs => ?_, ?_, fun e he p hpitch => ?_, fun time hstart hend => ?_⟩
  · obtain ⟨bar, hbar, rfl⟩ := List.mem_map.mp hs
    exact (hbars bar (List.mem_range.mp hbar)).units_eq
  · obtain ⟨bar, hbar, rfl⟩ := List.mem_map.mp hs
    exact (hbars bar (List.mem_range.mp hbar)).writable
  · rw [hcount]
    exact tiles_play htiles
  · obtain ⟨honset, hlasts, hstop⟩ := hwithin e he
    obtain ⟨bar, hbar, hbegin, hend⟩ := Grid.exists_bar_of_lt hg honset (hlasts.trans_le hstop)
    obtain ⟨f, hpiece, -⟩ := (Grid.exists_piece_has_iff hbegin hend).mpr ⟨le_rfl, hlasts⟩
    obtain ⟨hoffset, -, -, hsame, -⟩ := Grid.of_piece hpiece
    obtain ⟨x, hx, hstart, hsounds⟩ := (hbars bar hbar).sounds f
      (List.mem_filterMap.mpr ⟨e, he, hpiece⟩) p (hsame.trans hpitch)
    refine ⟨x, mem_play.mpr ⟨bar, hbar, hx⟩, ?_, hsounds⟩
    rw [hstart, hcast bar hbar, hoffset, max_eq_left hbegin]
    ring
  · rw [hcount] at hend
    obtain ⟨bar, hbar, hbegin, hstop⟩ := Grid.exists_bar_of_lt hg hstart hend
    have hsilent := (hbars bar hbar).silent (time - bar * g.length) (by linarith) (by linarith)
    rw [hcast bar hbar, add_sub_cancel] at hsilent
    rw [exists_play_rests_iff hlength htiles hbar hbegin hstop, hsilent]
    exact Grid.silent_barAt_iff hbegin hstop

end Slot

/-! ## A single layer -/

namespace Event

variable {g : Grid Rat} {length : Rat} {bars bar : Nat} {e : Event Rat}

/-- What sounds of an event in a bar. -/
def tone? (length : Rat) (e : Event Rat) (bar : Nat) : Option Tone :=
  let start := max e.onset (bar * length)
  let stop := min e.stop ((bar + 1) * length)
  if start < stop then e.pitch.map fun p => ⟨[p], start, stop⟩ else none

/-- What sounds of an event, cut at the bar lines. -/
def tones (length : Rat) (bars : Nat) (e : Event Rat) : List Tone :=
  (List.range bars).filterMap (e.tone? length)

/-- What sounds of an event in a bar is what sounds of its part. -/
lemma bind_tone?_piece (g : Grid Rat) (bar : Nat) (e : Event Rat) :
    (g.piece bar e).bind (Fragment.tone? (bar * g.length)) = e.tone? g.length bar := by
  rw [Grid.piece, tone?]
  split
  · simp only [Option.bind_some, Fragment.tone?, Fragment.stop]
    congr 1
    funext p
    congr 1 <;> ring
  · rfl

/-- A tone of an event lies within the event. -/
lemma of_mem_tones {x : Tone} (h : x ∈ e.tones length bars) :
    e.onset ≤ x.start ∧ x.start < x.stop ∧ x.stop ≤ e.stop ∧ e.pitch.isSome := by
  obtain ⟨bar, -, htone⟩ := List.mem_filterMap.mp h
  rw [tone?] at htone
  split at htone
  · rename_i hlt
    obtain ⟨p, hpitch, rfl⟩ := Option.map_eq_some_iff.mp htone
    exact ⟨le_max_left _ _, hlt, min_le_left _ _, by rw [hpitch]; rfl⟩
  · cases htone

/-- One bar more has at most one tone more of an event, behind the others. -/
lemma tones_succ (length : Rat) (bars : Nat) (e : Event Rat) :
    e.tones length (bars + 1) = e.tones length bars ++ (e.tone? length bars).toList := by
  rw [tones, List.range_succ, List.filterMap_append]
  cases htone : e.tone? length bars <;> simp [htone, tones]

/-- One bar more. -/
lemma tiles_tones_succ (hlength : 0 < length) (hlasts : e.onset < e.stop) {p : Int}
    (hpitch : e.pitch = some p)
    (h : Tiles Tone.start Tone.stop (min e.onset (bars * length)) (e.tones length bars)
      (min e.stop (bars * length))) :
    Tiles Tone.start Tone.stop (min e.onset ((bars + 1) * length)) (e.tones length (bars + 1))
      (min e.stop ((bars + 1) * length)) := by
  have hbar : (bars : Rat) * length < (bars + 1) * length := by linarith
  rw [tones_succ]
  by_cases hlt : max e.onset (bars * length) < min e.stop ((bars + 1) * length)
  · have hnow : e.tone? length bars = some ⟨[p], max e.onset (bars * length),
        min e.stop ((bars + 1) * length)⟩ := by
      rw [tone?, hpitch]
      exact if_pos hlt
    obtain ⟨hbegun, hbefore⟩ := lt_min_iff.mp hlt
    have honset : e.onset ≤ (bars + 1) * length := (le_max_left _ _).trans hbefore.le
    have hbehind : bars * length ≤ e.stop := (le_max_right _ _).trans hbegun.le
    rw [min_eq_right hbehind] at h
    have hown : Tiles Tone.start Tone.stop (max e.onset (bars * length))
        [⟨[p], max e.onset (bars * length), min e.stop ((bars + 1) * length)⟩]
        (min e.stop ((bars + 1) * length)) := ⟨rfl, hlt, rfl⟩
    rw [hnow, min_eq_left honset]
    refine Tiles.append ?_ hown
    rcases le_total e.onset (bars * length) with hle | hge
    · rw [min_eq_left hle] at h
      rw [max_eq_right hle]
      exact h
    · rw [min_eq_right hge] at h
      rw [max_eq_left hge, h.eq_nil]
      rfl
  · have hnone : e.tone? length bars = none := if_neg hlt
    rw [hnone, Option.toList_none, List.append_nil]
    -- The event ends before the bar or begins behind it.
    by_cases hstop : e.stop ≤ bars * length
    · rw [min_eq_left hstop, min_eq_left (hlasts.le.trans hstop)] at h
      rw [min_eq_left (hstop.trans hbar.le), min_eq_left (hlasts.le.trans (hstop.trans hbar.le))]
      exact h
    · have honset : (bars + 1) * length ≤ e.onset := by
        by_contra hbefore
        exact hlt (max_lt (lt_min hlasts (not_le.mp hbefore)) (lt_min (not_le.mp hstop) hbar))
      rw [min_eq_right (hbar.le.trans honset), min_eq_right (not_le.mp hstop).le] at h
      rw [min_eq_right honset, min_eq_right (honset.trans hlasts.le), h.eq_nil]
      rfl

/-- The tones of a note are the note, cut at the bar lines. -/
theorem tiles_tones (hlength : 0 < length) (honset : 0 ≤ e.onset) (hlasts : e.onset < e.stop)
    (hstop : e.stop ≤ bars * length) (hnote : e.pitch.isSome) :
    Tiles Tone.start Tone.stop e.onset (e.tones length bars) e.stop := by
  obtain ⟨p, hpitch⟩ := Option.isSome_iff_exists.mp hnote
  have hupTo (n : Nat) : Tiles Tone.start Tone.stop (min e.onset (n * length))
      (e.tones length n) (min e.stop (n * length)) := by
    induction n with
    | zero =>
      rw [Nat.cast_zero, zero_mul, min_eq_right honset, min_eq_right (honset.trans hlasts.le)]
      rfl
    | succ n ih =>
      rw [Nat.cast_succ]
      exact tiles_tones_succ hlength hlasts hpitch ih
  have hall := hupTo bars
  rw [min_eq_left hstop, min_eq_left (hlasts.le.trans hstop)] at hall
  exact hall

end Event

/-- A tone begins with the token that sounds it. -/
lemma Played.start_of_tone? {x : Played} {t : Tone} (h : x.tone? = some t) : t.start = x.start := by
  unfold Played.tone? at h
  split at h
  · rw [← Option.some.inj h]
  · cases h

/-- Tones that begin one after another are known by their members. -/
lemma eq_of_pairwise_start {l m : List Tone} (hl : l.Pairwise fun x y => x.start < y.start)
    (hm : m.Pairwise fun x y => x.start < y.start) (h : ∀ x, x ∈ l ↔ x ∈ m) : l = m := by
  have hnodup {l : List Tone} (hl : l.Pairwise fun x y => x.start < y.start) : l.Nodup :=
    hl.imp fun {x y} hlt heq => absurd hlt (not_lt.mpr (congrArg Tone.start heq).ge)
  refine List.Perm.eq_of_pairwise (fun x y _ _ hxy hyx => ?_) hl hm
    ((List.perm_ext_iff_of_nodup (hnodup hl) (hnodup hm)).mpr h)
  exact absurd hxy hyx.not_gt

namespace Slot

variable {g : Grid Rat} {events written : List (Event Rat)} {count : Nat} {bars : Nat → Slot Rat}

/-- The tones of notes that follow one another begin one after another. -/
lemma pairwise_tones (hlength : 0 < g.length)
    (hevents : ∀ e ∈ events, 0 ≤ e.onset ∧ e.onset < e.stop ∧
      (e.pitch.isSome → e.stop ≤ count * g.length))
    (hordered : events.Pairwise fun e f => e.stop ≤ f.onset) :
    (events.flatMap (Event.tones g.length count)).Pairwise fun x y => x.start < y.start := by
  refine List.pairwise_flatMap.mpr ⟨fun e he => ?_, ?_⟩
  · obtain ⟨honset, hlasts, hstop⟩ := hevents e he
    by_cases hnote : e.pitch.isSome
    · have hnoteTiles := Event.tiles_tones hlength honset hlasts (hstop hnote) hnote
      refine hnoteTiles.pairwise.imp_of_mem fun hx _ hle => ?_
      exact (hnoteTiles.mem hx).2.1.trans_le hle
    · have hnil : e.tones g.length count = [] :=
        List.eq_nil_iff_forall_not_mem.mpr fun x hx => hnote (Event.of_mem_tones hx).2.2.2
      rw [hnil]
      exact List.Pairwise.nil
  · refine hordered.imp fun hle x hx y hy => ?_
    obtain ⟨-, hlasts, hstop, -⟩ := Event.of_mem_tones hx
    exact hlasts.trans_le (hstop.trans (hle.trans (Event.of_mem_tones hy).1))

/-- The tones that are played begin one after another. -/
lemma pairwise_tone?_play {slots : List (Slot Rat)} {length stop : Rat}
    (htiles : Tiles Played.start Played.stop 0 (play length slots) stop) :
    ((play length slots).filterMap Played.tone?).Pairwise fun x y => x.start < y.start := by
  have hbegin : (play length slots).Pairwise fun x y => x.start < y.start :=
    htiles.pairwise.imp_of_mem fun hx _ hle => (htiles.mem hx).2.1.trans_le hle
  refine hbegin.filterMap _ fun x y hlt t ht t' ht' => ?_
  rw [Played.start_of_tone? ht, Played.start_of_tone? ht']
  exact hlt

/-- If each bar is heard as its notes were written, so is the whole. -/
lemma mem_tones_play_iff (htones : ∀ bar < count,
      ((bars bar).played g.length).filterMap Played.tone? =
        written.filterMap fun e => e.tone? g.length bar) {x : Tone} :
    x ∈ (play g.length ((List.range count).map bars)).filterMap Played.tone? ↔
      ∃ e ∈ written, x ∈ e.tones g.length count := by
  constructor
  · intro hx
    obtain ⟨y, hy, htone⟩ := List.mem_filterMap.mp hx
    obtain ⟨bar, hlt, hy⟩ := mem_play.mp hy
    have hmem := List.mem_filterMap.mpr ⟨y, hy, htone⟩
    rw [htones bar hlt] at hmem
    obtain ⟨e, he, htone'⟩ := List.mem_filterMap.mp hmem
    exact ⟨e, he, List.mem_filterMap.mpr ⟨bar, List.mem_range.mpr hlt, htone'⟩⟩
  · rintro ⟨e, he, hx⟩
    obtain ⟨bar, hlt, htone⟩ := List.mem_filterMap.mp hx
    have hmem : x ∈ written.filterMap fun e => e.tone? g.length bar :=
      List.mem_filterMap.mpr ⟨e, he, htone⟩
    rw [← htones bar (List.mem_range.mp hlt)] at hmem
    obtain ⟨y, hy, htone'⟩ := List.mem_filterMap.mp hmem
    exact List.mem_filterMap.mpr ⟨y, mem_play.mpr ⟨bar, List.mem_range.mp hlt, hy⟩, htone'⟩

/-- Notes that follow one another are heard as they were written, cut at the bar lines. -/
theorem tones_play (hlength : 0 < g.length)
    (hevents : ∀ e ∈ events, 0 ≤ e.onset ∧ e.onset < e.stop ∧
      (e.pitch.isSome → e.stop ≤ count * g.length))
    (hordered : events.Pairwise fun e f => e.stop ≤ f.onset)
    (hwritten : ∀ e, e.pitch.isSome → (e ∈ written ↔ e ∈ events))
    (htiles : Tiles Played.start Played.stop 0
      (play g.length ((List.range count).map bars)) (count * g.length))
    (htones : ∀ bar < count, ((bars bar).played g.length).filterMap Played.tone? =
      (g.barAt written bar).fragments.filterMap (Fragment.tone? (bar * g.length))) :
    (play g.length ((List.range count).map bars)).filterMap Played.tone? =
      events.flatMap (Event.tones g.length count) := by
  have hbar : ∀ bar < count, ((bars bar).played g.length).filterMap Played.tone? =
      written.filterMap fun e => e.tone? g.length bar := by
    intro bar hlt
    rw [htones bar hlt, Grid.barAt, List.filterMap_filterMap]
    refine List.filterMap_congr fun e _ => ?_
    exact Event.bind_tone?_piece g bar e
  refine eq_of_pairwise_start (pairwise_tone?_play htiles)
    (pairwise_tones hlength hevents hordered) fun x => ?_
  rw [mem_tones_play_iff hbar, List.mem_flatMap]
  constructor
  · rintro ⟨e, he, hx⟩
    exact ⟨e, (hwritten e (Event.of_mem_tones hx).2.2.2).mp he, hx⟩
  · rintro ⟨e, he, hx⟩
    exact ⟨e, (hwritten e (Event.of_mem_tones hx).2.2.2).mpr he, hx⟩

end Slot

end PatternScore
