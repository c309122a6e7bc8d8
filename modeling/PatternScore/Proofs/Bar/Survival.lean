import PatternScore.Proofs.Bar.Cutting
import PatternScore.Proofs.Bar.Filling

/-!
# Which notes survive the cutting

The scanner never opens a bar again. A note that begins while an earlier one is still held over the
bar line is laid from the bar in which that one ends, and what lies before is lost. An instant is
therefore heard exactly if a laid event covers it (`sounds_bars_iff`). Of a single note this says
that it is heard from its onset to its end, the tolerance aside, if and only if all events before it
end in the bar in which it begins or sooner (`segment_represents`); where only the sum of all notes
of a pitch counts, another note of that pitch may still stand in for the part that is lost.
-/

namespace PatternScore

/-! ## What is heard -/

/-- An instant lies inside a fragment of some bars that carries a pitch. -/
def Slot.Sounds (length : Rat) (slots : List (Slot Rat)) (pitch : Int) (time : Rat) : Prop :=
  ∃ s ∈ slots, ∃ f ∈ s.fragments, f.pitch = some pitch ∧
    s.index * length + f.offset ≤ time ∧ time ≤ s.index * length + f.stop

/-- An event can be heard at an instant. -/
def Event.Reaches (e : Event Rat) (time : Rat) : Prop :=
  e.onset ≤ time ∧ time ≤ e.stop

namespace Laid

variable (g : Grid Rat)

/-- The time from which a laid event stands in its bars. -/
def start (l : Laid) : Rat :=
  max l.event.onset (l.first * g.length)

/-- The time up to which a laid event stands in its bars. -/
def stop (l : Laid) : Rat :=
  min l.event.stop ((l.last + 1) * g.length)

/-- Something of a laid event is left, and the instant belongs to it. -/
def Covers (l : Laid) (time : Rat) : Prop :=
  l.start g < l.stop g ∧ l.start g ≤ time ∧ time ≤ l.stop g

variable {g}

/-- An instant that a laid event covers is one at which the event can be heard. -/
lemma Covers.reaches {l : Laid} {time : Rat} (h : l.Covers g time) : l.event.Reaches time :=
  ⟨(le_max_left _ _).trans h.2.1, h.2.2.trans (min_le_left _ _)⟩

/-- What a laid event leaves in a bar, and when it leaves anything. -/
lemma pieceOf_eq_some_iff {l : Laid} {bar : Nat} {f : Fragment Rat} :
    g.pieceOf bar l = some f ↔
      (l.first ≤ bar ∧ bar ≤ l.last) ∧
        max l.event.onset (bar * g.length) < min l.event.stop ((bar + 1) * g.length) ∧
        f = { offset := max l.event.onset (bar * g.length) - bar * g.length
              duration := min l.event.stop ((bar + 1) * g.length) -
                max l.event.onset (bar * g.length)
              pitch := l.event.pitch, chord := l.event.chord } := by
  unfold Grid.pieceOf
  split
  · rename_i hbar
    unfold Grid.piece
    simp only [hbar, true_and]
    split
    · rename_i hlt
      simp only [hlt, true_and, Option.some.injEq]
      exact eq_comm
    · rename_i hnot
      simp [hnot]
  · rename_i hbar
    simp [hbar]

/-- An instant lies in a bar, the end of the bar excluded. -/
lemma exists_bar_lt (hg : g.Usable) {time : Rat} (h : 0 ≤ time) :
    ∃ bar : Nat, bar * g.length ≤ time ∧ time < (bar + 1) * g.length := by
  have hquotient : 0 ≤ time / g.length := div_nonneg h hg.length_pos.le
  refine ⟨⌊time / g.length⌋₊, ?_, ?_⟩
  · exact (le_div_iff₀ hg.length_pos).mp (Nat.floor_le hquotient)
  · exact (div_lt_iff₀ hg.length_pos).mp (Nat.lt_floor_add_one _)

/-- An instant lies in a bar, the start of the bar excluded. -/
lemma exists_bar_le (hg : g.Usable) {time : Rat} (h : 0 < time) :
    ∃ bar : Nat, bar * g.length < time ∧ time ≤ (bar + 1) * g.length := by
  have hquotient : 0 < time / g.length := div_pos h hg.length_pos
  have hceil : ((⌈time / g.length⌉₊ - 1 : Nat) : Rat) + 1 = ⌈time / g.length⌉₊ := by
    rw [Nat.cast_pred (Nat.ceil_pos.mpr hquotient), sub_add_cancel]
  refine ⟨⌈time / g.length⌉₊ - 1, ?_, ?_⟩
  · have hlt := Nat.ceil_lt_add_one hquotient.le
    exact (lt_div_iff₀ hg.length_pos).mp (by linarith)
  · rw [hceil]
    exact (div_le_iff₀ hg.length_pos).mp (Nat.le_ceil _)

/-- Bar by bar an event is left where it is covered. -/
lemma exists_bar_iff (hg : g.Usable) {l : Laid} {time : Rat} :
    (∃ bar, (l.first ≤ bar ∧ bar ≤ l.last) ∧
      max l.event.onset (bar * g.length) < min l.event.stop ((bar + 1) * g.length) ∧
      max l.event.onset (bar * g.length) ≤ time ∧
      time ≤ min l.event.stop ((bar + 1) * g.length)) ↔ l.Covers g time := by
  have hlength := hg.length_pos
  constructor
  · rintro ⟨bar, ⟨hfirst, hlast⟩, hlt, hle, hge⟩
    have hfirst' : (l.first : Rat) * g.length ≤ bar * g.length := by gcongr
    have hlast' : ((bar : Rat) + 1) * g.length ≤ (l.last + 1) * g.length := by gcongr
    have hstart : l.start g ≤ max l.event.onset (bar * g.length) := max_le_max le_rfl hfirst'
    have hstop : min l.event.stop ((bar + 1) * g.length) ≤ l.stop g := min_le_min le_rfl hlast'
    exact ⟨hstart.trans_lt (hlt.trans_le hstop), hstart.trans hle, hge.trans hstop⟩
  · rintro ⟨hlt, hle, hge⟩
    have hline : (0 : Rat) ≤ l.first * g.length := by positivity
    obtain ⟨honset, hfirst⟩ := max_le_iff.mp hle
    obtain ⟨hstop, hlast⟩ := le_min_iff.mp hge
    have hcancel {m n : Nat} (h : (m : Rat) * g.length < n * g.length) : m < n := by
      exact_mod_cast lt_of_mul_lt_mul_right h hlength.le
    rcases hge.lt_or_eq with hbefore | hend
    · obtain ⟨bar, hbar, hbar'⟩ := exists_bar_lt hg (hline.trans hfirst)
      obtain ⟨hstop', hlast'⟩ := lt_min_iff.mp hbefore
      have hin : l.first < bar + 1 := hcancel (by push_cast; linarith)
      have hin' : bar < l.last + 1 := hcancel (by push_cast; linarith)
      exact ⟨bar, ⟨by omega, by omega⟩,
        (max_le honset hbar).trans_lt (lt_min hstop' hbar'), max_le honset hbar,
        le_min hstop hbar'.le⟩
    · obtain ⟨honset', hfirst'⟩ := max_lt_iff.mp (hend ▸ hlt)
      obtain ⟨bar, hbar, hbar'⟩ := exists_bar_le hg (hline.trans_lt hfirst')
      have hin : l.first < bar + 1 := hcancel (by push_cast; linarith)
      have hin' : bar < l.last + 1 := hcancel (by push_cast; linarith)
      exact ⟨bar, ⟨by omega, by omega⟩,
        (max_lt honset' hbar).trans_le (le_min hstop hbar'), max_le honset hbar.le,
        le_min hstop hbar'⟩

end Laid

namespace Grid

variable {g : Grid Rat} {l : List Laid}

/-- Only the parts of laid events carry a pitch. -/
lemma mem_content_iff {bar : Nat} {f : Fragment Rat} (hf : f.pitch.isSome) :
    f ∈ g.content l bar ↔ f ∈ l.filterMap (g.pieceOf bar) := by
  unfold content
  cases hpieces : l.filterMap (g.pieceOf bar) with
  | nil =>
    have hrest : f ≠ Scanner.wholeRest g := by
      rintro rfl
      cases hf
    simp [hrest]
  | cons first rest => rfl

/-- The rest that fills the last bar carries no pitch either. -/
lemma exists_lastBar_iff {number : Nat} {f : Fragment Rat} (hf : f.pitch.isSome) :
    (∃ s ∈ Scanner.lastBar g l number, s.index = number ∧ f ∈ s.fragments) ↔
      f ∈ l.filterMap (g.pieceOf number) := by
  unfold Scanner.lastBar
  cases hpieces : l.filterMap (g.pieceOf number) with
  | nil => simp
  | cons first rest =>
    have hfilling (time : Rat) : f ∉ Scanner.filling g time := by
      unfold Scanner.filling
      split
      · rw [List.mem_singleton]
        rintro rfl
        cases hf
      · exact List.not_mem_nil
    simp [hfilling]

/-- The last bar has the number of the bar that was open. -/
lemma index_lastBar {number : Nat} {s : Slot Rat} (hs : s ∈ Scanner.lastBar g l number) :
    s.index = number := by
  unfold Scanner.lastBar at hs
  split at hs
  · cases hs
  · rw [List.mem_singleton.mp hs]

/-- The bars have the numbers up to that of the open one. -/
lemma exists_index_bars {number : Nat} {s : Slot Rat} (hs : s ∈ g.bars l number) :
    ∃ bar ≤ number, s.index = bar := by
  rcases List.mem_append.mp hs with hclosed | hopen
  · obtain ⟨bar, hbar, rfl⟩ := List.mem_map.mp hclosed
    exact ⟨bar, (List.mem_range.mp hbar).le, rfl⟩
  · exact ⟨number, le_rfl, index_lastBar hopen⟩

/-- What carries a pitch in some bar is a part of a laid event. -/
lemma exists_bars_iff {number bar : Nat} (hbar : bar ≤ number) {f : Fragment Rat}
    (hf : f.pitch.isSome) :
    (∃ s ∈ g.bars l number, s.index = bar ∧ f ∈ s.fragments) ↔
      f ∈ l.filterMap (g.pieceOf bar) := by
  constructor
  · rintro ⟨s, hs, hindex, hmem⟩
    rcases List.mem_append.mp hs with hclosed | hopen
    · obtain ⟨bar', _, rfl⟩ := List.mem_map.mp hclosed
      have hbar' : (bar' : Int) = bar := hindex
      obtain rfl : bar' = bar := by exact_mod_cast hbar'
      exact (mem_content_iff hf).mp hmem
    · have hnumber := index_lastBar hopen
      obtain rfl : bar = number := by exact_mod_cast hindex.symm.trans hnumber
      exact (exists_lastBar_iff hf).mp ⟨s, hopen, hnumber, hmem⟩
  · intro hmem
    rcases hbar.lt_or_eq with hlt | rfl
    · refine ⟨g.slot l bar, ?_, rfl, (mem_content_iff hf).mpr hmem⟩
      exact List.mem_append_left _ (List.mem_map_of_mem (List.mem_range.mpr hlt))
    · obtain ⟨s, hs, hindex, hmem'⟩ := (exists_lastBar_iff hf).mpr hmem
      exact ⟨s, List.mem_append_right _ hs, hindex, hmem'⟩

/-- An instant is heard exactly if a laid event covers it. -/
lemma sounds_bars_iff (hg : g.Usable) {number : Nat} (hlast : ∀ x ∈ l, x.last ≤ number)
    {pitch : Int} {time : Rat} :
    Slot.Sounds g.length (g.bars l number) pitch time ↔
      ∃ x ∈ l, x.event.pitch = some pitch ∧ x.Covers g time := by
  constructor
  · rintro ⟨s, hs, f, hf, hpitch, hle, hge⟩
    obtain ⟨bar, hbar, hindex⟩ := exists_index_bars hs
    have hsome : f.pitch.isSome := by simp [hpitch]
    have hpieces := (exists_bars_iff hbar hsome).mp ⟨s, hs, hindex, hf⟩
    obtain ⟨x, hx, hpiece⟩ := List.mem_filterMap.mp hpieces
    obtain ⟨hin, hlt, rfl⟩ := Laid.pieceOf_eq_some_iff.mp hpiece
    refine ⟨x, hx, hpitch, (Laid.exists_bar_iff hg).mp ⟨bar, hin, hlt, ?_, ?_⟩⟩
    · rw [hindex] at hle
      push_cast at hle
      linarith
    · rw [hindex, Fragment.stop] at hge
      push_cast at hge
      linarith
  · rintro ⟨x, hx, hpitch, hcovers⟩
    obtain ⟨bar, hin, hlt, hle, hge⟩ := (Laid.exists_bar_iff hg).mpr hcovers
    have hpiece := Laid.pieceOf_eq_some_iff.mpr ⟨hin, hlt, rfl⟩
    have hmem := List.mem_filterMap.mpr ⟨x, hx, hpiece⟩
    have hsome : x.event.pitch.isSome := by simp [hpitch]
    obtain ⟨s, hs, hindex, hf⟩ := (exists_bars_iff (hin.2.trans (hlast x hx)) hsome).mpr hmem
    refine ⟨s, hs, _, hf, hpitch, ?_, ?_⟩
    · rw [hindex]
      push_cast
      linarith
    · rw [hindex, Fragment.stop]
      push_cast
      linarith

/-! ## Silence moves nothing -/

/-- Silence between events leaves every other event in its bars. -/
lemma lay_lay_silence (hg : g.Usable) (opened : Nat) {e : Event Rat} {expected : Rat}
    (hexpected : 0 ≤ expected) (hgap : expected ≤ e.onset) :
    g.lay (g.lay opened (silence expected e.onset)).last e = g.lay opened e := by
  have honset : 0 ≤ e.onset := hexpected.trans hgap
  have hbegin : g.barOf expected ≤ g.barOf e.onset := by
    rw [barOf_le_iff hg hexpected]
    have := (barOf_le_iff hg honset).mp le_rfl
    linarith
  have hend := barBefore_le_barOf hg honset le_rfl
  have hlast : max (g.lay opened (silence expected e.onset)).last (g.barOf e.onset) =
      max opened (g.barOf e.onset) := by
    change max (max (max opened (g.barOf expected))
      (g.barBefore (silence expected e.onset).stop)) (g.barOf e.onset) = _
    rw [stop_silence]
    omega
  rw [lay, hlast]
  rfl

/-- Filling the silence between events only lays rests besides. -/
lemma mem_laid_filled (hg : g.Usable) {events : List (Event Rat)} (opened : Nat) {expected : Rat}
    (hexpected : 0 ≤ expected) {x : Laid} (hx : x.event.pitch.isSome) :
    x ∈ g.laid opened (g.filled expected events) ↔ x ∈ g.laid opened events := by
  induction events generalizing opened expected with
  | nil => rfl
  | cons e rest ih =>
    have hlater : 0 ≤ max expected e.stop := hexpected.trans (le_max_left _ _)
    unfold filled
    split
    · rename_i hgap
      have hlt : expected + g.tolerance < e.onset := by simpa using (Bool.and_elim_right hgap)
      have htolerance := hg.tolerance_nonneg
      have hrest : x ≠ g.lay opened (silence expected e.onset) := by
        rintro rfl
        cases hx
      rw [laid, laid, laid, lay_lay_silence hg opened hexpected (by linarith)]
      simp only [List.mem_cons, hrest, false_or, ih _ hlater]
    · simp only [laid, List.mem_cons, ih _ hlater]

/-! ## The bars of a voice -/

/-- A bar that is no upbeat was not moved to its end. -/
lemma padPickup_eq {s : Slot Rat} (h : (s.padPickup g).pickup = false) : s.padPickup g = s := by
  obtain hsame | ⟨hpickup, -⟩ := s.padPickup_cases g
  · exact hsame
  · rw [hpickup] at h
    cases h

/-- Where silence is filled, all bars stay as they were cut. -/
lemma markPickup_of_fillGaps (hshift : g.shift? = none) (hfill : g.fillGaps = true)
    (slots : List (Slot Rat)) : g.markPickup slots = slots := by
  cases slots with
  | nil => rfl
  | cons first rest =>
    rw [markPickup, hshift, hfill]
    rfl

/-- Without an upbeat all bars stay as they were cut. -/
lemma markPickup_eq (hshift : g.shift? = none) {slots : List (Slot Rat)}
    (h : ∀ s ∈ g.markPickup slots, s.pickup = false) : g.markPickup slots = slots := by
  cases slots with
  | nil => rfl
  | cons first rest =>
    have hsame : g.markPickup (first :: rest) =
        if g.fillGaps then first :: rest else first.padPickup g :: rest := by
      rw [markPickup, hshift]
      rfl
    rw [hsame] at h ⊢
    split
    · rfl
    · rename_i hwritten
      rw [if_neg hwritten] at h
      rw [padPickup_eq (h _ List.mem_cons_self)]

/-- Marks change nothing that is heard. -/
lemma sounds_mark (length : Rat) (slots : List (Slot Rat)) (pitch : Int) (time : Rat) :
    Slot.Sounds length (g.mark slots) pitch time ↔ Slot.Sounds length slots pitch time := by
  simp [Slot.Sounds, mark]

/-- Without an upbeat nothing is moved. -/
lemma shift?_eq_none (htolerance : 0 ≤ g.tolerance) (hpickup : g.pickup ≤ 0) :
    g.shift? = none :=
  if_neg fun h => absurd h.1 (not_lt.mpr (hpickup.trans htolerance))

/-- No bar is an upbeat until one is marked. -/
lemma pickup_bars {number : Nat} {s : Slot Rat} (hs : s ∈ g.bars l number) : s.pickup = false := by
  rcases List.mem_append.mp hs with hclosed | hopen
  · obtain ⟨bar, _, rfl⟩ := List.mem_map.mp hclosed
    rfl
  · unfold Scanner.lastBar at hopen
    split at hopen
    · cases hopen
    · rw [List.mem_singleton.mp hopen]

/-- Where silence is filled, no bar is made an upbeat. -/
lemma pickup_cut (hg : g.Usable) {events : List (Event Rat)}
    (h : ∀ e ∈ events, 0 ≤ e.onset ∧ 0 < e.duration) (hshift : g.shift? = none)
    (hfill : g.fillGaps = true) {s : Slot Rat} (hs : s ∈ g.cut events) : s.pickup = false := by
  rw [cut_eq hg hshift h, markPickup_of_fillGaps hshift hfill] at hs
  obtain ⟨s', hs', rfl⟩ := List.mem_map.mp hs
  have hfalse : s'.pickup = false := pickup_bars hs'
  exact hfalse

/-- On a usable grid every voice has its bars. -/
lemma segment_eq (hg : g.Usable) (events : List (Event Rat)) :
    g.segment events = .ok (g.cut events) :=
  segment_eq_cut hg.length_pos hg.tolerance_nonneg events

/-- Where no upbeat is made, an instant is heard exactly if a laid event covers it. -/
lemma sounds_cut_iff (hg : g.Usable) {events : List (Event Rat)}
    (h : ∀ e ∈ events, 0 ≤ e.onset ∧ 0 < e.duration) (hshift : g.shift? = none)
    (hpickup : ∀ s ∈ g.cut events, s.pickup = false) {pitch : Int} {time : Rat} :
    Slot.Sounds g.length (g.cut events) pitch time ↔
      ∃ x ∈ g.laid 0 events, x.event.pitch = some pitch ∧ x.Covers g time := by
  rw [cut_eq hg hshift h] at hpickup ⊢
  have hunmoved : ∀ s ∈ g.markPickup (g.bars (g.laid 0 (g.filled 0 events))
      (g.opened 0 (g.filled 0 events))), s.pickup = false := by
    intro s hs
    have hmarked : { s with mark := g.markers.at? s.index } ∈ g.mark _ := List.mem_map_of_mem hs
    have hfalse := hpickup _ hmarked
    exact hfalse
  rw [sounds_mark, markPickup_eq hshift hunmoved, sounds_bars_iff hg fun _ hx => last_le_opened hx]
  constructor
  · rintro ⟨x, hx, hpitch, hcovers⟩
    have hsome : x.event.pitch.isSome := by simp [hpitch]
    exact ⟨x, (mem_laid_filled hg 0 le_rfl hsome).mp hx, hpitch, hcovers⟩
  · rintro ⟨x, hx, hpitch, hcovers⟩
    have hsome : x.event.pitch.isSome := by simp [hpitch]
    exact ⟨x, (mem_laid_filled hg 0 le_rfl hsome).mpr hx, hpitch, hcovers⟩

/-! ## Single notes -/

/-- Events are laid one part after another, from the bar on that the first part leaves open. -/
lemma laid_append (number : Nat) (before after : List (Event Rat)) :
    g.laid number (before ++ after) =
      g.laid number before ++ g.laid (g.opened number before) after := by
  induction before generalizing number with
  | nil => rfl
  | cons e rest ih => simp [laid, opened, ih]

/-- Nothing is laid that is not an event of the voice. -/
lemma event_mem_of_mem_laid {number : Nat} {events : List (Event Rat)} {x : Laid}
    (hx : x ∈ g.laid number events) : x.event ∈ events := by
  induction events generalizing number with
  | nil => cases hx
  | cons e rest ih =>
    rcases List.mem_cons.mp hx with rfl | hrest
    · exact List.mem_cons_self
    · exact List.mem_cons_of_mem _ (ih hrest)

/-- A note that finds its own bar open is covered from its onset to its end. -/
lemma covers_lay (hg : g.Usable) {number : Nat} {e : Event Rat} (honset : 0 ≤ e.onset)
    (hopen : number ≤ g.barOf e.onset) (hlong : 2 * g.tolerance < e.duration) {time : Rat}
    (hstart : e.onset + g.tolerance ≤ time) (hstop : time ≤ e.stop - g.tolerance) :
    (g.lay number e).Covers g time := by
  have htolerance := hg.tolerance_nonneg
  have hduration : e.stop = e.onset + e.duration := rfl
  have hfirst : (g.lay number e).first = g.barOf e.onset := max_eq_right hopen
  have hbegin := (le_barOf_iff hg honset).mp le_rfl
  have hend : e.stop ≤ ((g.lay number e).last + 1) * g.length + g.tolerance := by
    rw [← barBefore_le_iff hg]
    exact le_max_right (max number (g.barOf e.onset)) (g.barBefore e.stop)
  have hfrom : (g.lay number e).start g ≤ e.onset + g.tolerance := by
    rw [Laid.start, hfirst]
    exact max_le (by change e.onset ≤ _; linarith) hbegin
  have hto : e.stop - g.tolerance ≤ (g.lay number e).stop g :=
    le_min (by change _ ≤ e.stop; linarith) (by linarith)
  exact ⟨by linarith, hfrom.trans hstart, hstop.trans hto⟩

/-- A note that is laid behind the bar in which it begins is not covered at its onset. -/
lemma not_covers_lay (hg : g.Usable) {number : Nat} {e : Event Rat} (honset : 0 ≤ e.onset)
    (hopen : g.barOf e.onset < number) : ¬ (g.lay number e).Covers g (e.onset + g.tolerance) := by
  rintro ⟨-, hstart, -⟩
  have hfirst : (g.lay number e).first = number := max_eq_left hopen.le
  have hbegin := (barOf_le_iff hg honset).mp le_rfl
  have hbehind : ((g.barOf e.onset : Rat) + 1) * g.length ≤ number * g.length := by
    have hlength := hg.length_pos
    have hnumber : ((g.barOf e.onset : Rat) + 1) ≤ number := by exact_mod_cast hopen
    gcongr
  rw [Laid.start, hfirst] at hstart
  have := (le_max_right _ _).trans hstart
  linarith

end Grid

/-- Every instant of a note, its edges within the tolerance aside, lies inside a fragment with the
pitch of the note. -/
def Event.IsRepresented (g : Grid Rat) (slots : List (Slot Rat)) (e : Event Rat) : Prop :=
  ∀ pitch, e.pitch = some pitch → ∀ time, e.onset + g.tolerance ≤ time →
    time ≤ e.stop - g.tolerance → Slot.Sounds g.length slots pitch time

namespace Grid

variable {g : Grid Rat}

section Run

variable {before after : List (Event Rat)} {e : Event Rat}

/-- An event is laid from the bar on that is open after those before it. -/
lemma laid_split (before after : List (Event Rat)) (e : Event Rat) :
    g.laid 0 (before ++ e :: after) = g.laid 0 before ++
      g.lay (g.opened 0 before) e :: g.laid (g.lay (g.opened 0 before) e).last after := by
  rw [laid_append]
  rfl

/-- A note is represented if every event before it ends in the bar in which the note begins. -/
lemma isRepresented_cut (hg : g.Usable)
    (hevents : ∀ f ∈ before ++ e :: after, 0 ≤ f.onset ∧ 0 < f.duration)
    (hsorted : ∀ f ∈ before, f.onset ≤ e.onset) (hshift : g.shift? = none)
    (hpickup : ∀ s ∈ g.cut (before ++ e :: after), s.pickup = false)
    (hlong : 2 * g.tolerance < e.duration)
    (hends : ∀ f ∈ before, f.stop ≤ (g.barOf e.onset + 1) * g.length + g.tolerance) :
    e.IsRepresented g (g.cut (before ++ e :: after)) := by
  intro pitch hpitch time hstart hstop
  have honset : 0 ≤ e.onset := (hevents e (by simp)).1
  have hopen : g.opened 0 before ≤ g.barOf e.onset := by
    refine opened_le (Nat.zero_le _) fun f hf => ⟨?_, ?_⟩
    · have hle := hsorted f hf
      have hbegin := (barOf_le_iff hg honset).mp le_rfl
      rw [barOf_le_iff hg (hevents f (List.mem_append_left _ hf)).1]
      linarith
    · exact (barBefore_le_iff hg).mpr (hends f hf)
  have hcovers := covers_lay hg honset hopen hlong hstart hstop
  rw [sounds_cut_iff hg hevents hshift hpickup, laid_split]
  exact ⟨_, List.mem_append_right _ List.mem_cons_self, hpitch, hcovers⟩

/-- A note is not represented if an event before it reaches behind the bar in which the note begins,
unless another note of its pitch is there. -/
lemma not_isRepresented_cut (hg : g.Usable)
    (hevents : ∀ f ∈ before ++ e :: after, 0 ≤ f.onset ∧ 0 < f.duration)
    (hshift : g.shift? = none) (hpickup : ∀ s ∈ g.cut (before ++ e :: after), s.pickup = false)
    (hnote : e.pitch.isSome) (hlong : 2 * g.tolerance < e.duration)
    (hreaches : ∃ f ∈ before, (g.barOf e.onset + 1) * g.length + g.tolerance < f.stop)
    (halone : ∀ f ∈ before ++ after, f.pitch = e.pitch → ¬ f.Reaches (e.onset + g.tolerance)) :
    ¬ e.IsRepresented g (g.cut (before ++ e :: after)) := by
  intro hrepresented
  have honset : 0 ≤ e.onset := (hevents e (by simp)).1
  obtain ⟨f, hf, hbehind⟩ := hreaches
  obtain ⟨pitch, hpitch⟩ := Option.isSome_iff_exists.mp hnote
  have hopen : g.barOf e.onset < g.opened 0 before := by
    refine lt_of_lt_of_le ?_ (barBefore_le_opened hf)
    by_contra hle
    have := (barBefore_le_iff hg).mp (not_lt.mp hle)
    linarith
  have hlast : e.onset + g.tolerance ≤ e.stop - g.tolerance := by
    have hduration : e.stop = e.onset + e.duration := rfl
    linarith
  have hsounds := hrepresented pitch hpitch _ le_rfl hlast
  rw [sounds_cut_iff hg hevents hshift hpickup, laid_split] at hsounds
  obtain ⟨x, hx, hsame, hcovers⟩ := hsounds
  have hother (hin : x.event ∈ before ++ after) : False :=
    halone x.event hin (hsame.trans hpitch.symm) hcovers.reaches
  rcases List.mem_append.mp hx with hbefore | hfrom
  · exact hother (List.mem_append_left _ (event_mem_of_mem_laid hbefore))
  · rcases List.mem_cons.mp hfrom with rfl | hafter
    · exact not_covers_lay hg honset hopen hcovers
    · exact hother (List.mem_append_right _ (event_mem_of_mem_laid hafter))

end Run

/-- Where no upbeat is made, exactly what the laid events cover is heard. A note is represented if
every event before it ends in the bar in which the note begins; if one reaches further, the note is
not, unless another one of its pitch is there when it begins. -/
theorem segment_represents (hg : g.Usable) {events : List (Event Rat)}
    (hevents : ∀ e ∈ events, 0 ≤ e.onset ∧ 0 < e.duration)
    (hsorted : events.Pairwise fun e f => e.onset ≤ f.onset) :
    ∃ slots, g.segment events = .ok slots ∧
      (g.shift? = none → (∀ s ∈ slots, s.pickup = false) →
        (∀ pitch time, Slot.Sounds g.length slots pitch time ↔
          ∃ x ∈ g.laid 0 events, x.event.pitch = some pitch ∧ x.Covers g time) ∧
        ∀ before e after, events = before ++ e :: after → e.pitch.isSome →
          2 * g.tolerance < e.duration →
          ((∀ f ∈ before, f.stop ≤ (g.barOf e.onset + 1) * g.length + g.tolerance) →
            e.IsRepresented g slots) ∧
          ((∃ f ∈ before, (g.barOf e.onset + 1) * g.length + g.tolerance < f.stop) →
            (∀ f ∈ before ++ after, f.pitch = e.pitch → ¬ f.Reaches (e.onset + g.tolerance)) →
            ¬ e.IsRepresented g slots)) := by
  refine ⟨g.cut events, segment_eq hg events, fun hshift hpickup => ⟨fun _ _ =>
    sounds_cut_iff hg hevents hshift hpickup, ?_⟩⟩
  rintro before e after rfl hnote hlong
  have hearlier : ∀ f ∈ before, f.onset ≤ e.onset := fun f hf =>
    (List.pairwise_append.mp hsorted).2.2 f hf e List.mem_cons_self
  constructor
  · exact isRepresented_cut hg hevents hearlier hshift hpickup hlong
  · exact not_isRepresented_cut hg hevents hshift hpickup hnote hlong

/-- A melody note over a bass note of a whole bar is represented. -/
theorem segment_represents_over_bass :
    let g : Grid Rat := { length := 2000, tolerance := 1, pickup := 0 }
    let bass : Event Rat := { onset := 0, duration := 2000, pitch := some 0 }
    let melody : Event Rat := { onset := 500, duration := 500, pitch := some 4 }
    ∃ slots, g.segment [bass, melody] = .ok slots ∧ melody.IsRepresented g slots := by
  intro g bass melody
  have hg : g.Usable := by
    constructor <;> norm_num [g]
  have hevents : ∀ e ∈ [bass, melody], 0 ≤ e.onset ∧ 0 < e.duration := by
    norm_num [bass, melody]
  have hsorted : [bass, melody].Pairwise fun e f => e.onset ≤ f.onset := by
    norm_num [bass, melody]
  have hshift : g.shift? = none := shift?_eq_none hg.tolerance_nonneg le_rfl
  obtain ⟨slots, hslots, hall⟩ := segment_represents hg hevents hsorted
  have hcut : g.cut [bass, melody] = slots :=
    Except.ok.inj ((segment_eq hg _).symm.trans hslots)
  have hpickup : ∀ s ∈ slots, s.pickup = false := by
    rw [← hcut]
    exact fun s hs => pickup_cut hg hevents hshift rfl hs
  have hlong : 2 * g.tolerance < melody.duration := by norm_num [g, melody]
  have hends : ∀ f ∈ [bass], f.stop ≤ (g.barOf melody.onset + 1) * g.length + g.tolerance := by
    have hbar : g.barOf melody.onset = 0 := by
      rw [← Nat.le_zero, barOf_le_iff hg] <;> norm_num [g, melody]
    intro f hf
    rw [List.mem_singleton.mp hf, hbar]
    norm_num [g, bass, Event.stop]
  exact ⟨slots, hslots, ((hall hshift hpickup).2 [bass] melody [] rfl rfl hlong).1 hends⟩

/-- Not every note is represented: one that begins under a note that is held over the bar line is
lost. -/
theorem not_forall_represented :
    ¬ ∀ (g : Grid Rat) (events : List (Event Rat)) (slots : List (Slot Rat)),
      0 < g.length → 0 ≤ g.tolerance → 2 * g.tolerance < g.length →
      (∀ e ∈ events, 0 ≤ e.onset ∧ 0 < e.duration) →
      (events.Pairwise fun e f => e.onset ≤ f.onset) →
      g.segment events = .ok slots → g.shift? = none → (∀ s ∈ slots, s.pickup = false) →
      ∀ e ∈ events, e.pitch.isSome → 2 * g.tolerance < e.duration → e.IsRepresented g slots := by
  intro hall
  let g : Grid Rat := { length := 2000, tolerance := 1, pickup := 0 }
  let held : Event Rat := { onset := 0, duration := 3000, pitch := some 0 }
  let lost : Event Rat := { onset := 500, duration := 500, pitch := some 4 }
  have hg : g.Usable := by
    constructor <;> norm_num [g]
  have hevents : ∀ e ∈ [held, lost], 0 ≤ e.onset ∧ 0 < e.duration := by
    norm_num [held, lost]
  have hsorted : [held, lost].Pairwise fun e f => e.onset ≤ f.onset := by
    norm_num [held, lost]
  have hshift : g.shift? = none := shift?_eq_none hg.tolerance_nonneg le_rfl
  have hpickup : ∀ s ∈ g.cut [held, lost], s.pickup = false :=
    fun s hs => pickup_cut hg hevents hshift rfl hs
  have hlong : 2 * g.tolerance < lost.duration := by norm_num [g, lost]
  have hrepresented : lost.IsRepresented g (g.cut [held, lost]) :=
    hall g _ _ hg.length_pos hg.tolerance_nonneg (by norm_num [g]) hevents hsorted
      (segment_eq hg _) hshift hpickup lost (by simp) rfl hlong
  refine @not_isRepresented_cut g [held] [] lost hg hevents hshift hpickup rfl hlong ?_ ?_
    hrepresented
  · have hbar : g.barOf lost.onset = 0 := by
      rw [← Nat.le_zero, barOf_le_iff hg] <;> norm_num [g, lost]
    refine ⟨held, List.mem_singleton_self _, ?_⟩
    rw [hbar]
    norm_num [g, held, Event.stop]
  · intro f hf hpitch
    rw [List.append_nil, List.mem_singleton] at hf
    subst hf
    cases hpitch

end Grid

end PatternScore
