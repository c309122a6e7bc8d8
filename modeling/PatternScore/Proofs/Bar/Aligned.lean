import PatternScore.Proofs.Bar.Layers
import PatternScore.Proofs.Bar.Survival

/-!
# Cutting on the steps of a grid

Where all events begin and end at whole multiples of a step, and the tolerance is shorter than a
step, comparisons with bar lines are exact (`Steps.barOf_le_iff`). If moreover every event ends in
the bar in which the later ones begin, or before, then nothing is lost, and a bar holds just the
parts of the events that lie in it (`Written.bars_eq`). Events without gaps leave parts without gaps
(`tiles_pieces`), so events that are written in layers give bars that are written in layers.
-/

namespace PatternScore

/-! ## Steps -/

/-- Two whole numbers of steps do not differ by less than a step. -/
lemma Units.IsWhole.le_of_le_add {step tolerance x y : Rat} (hx : IsWhole step x)
    (hy : IsWhole step y) (htolerance : 0 ≤ tolerance) (hlt : tolerance < step)
    (h : x ≤ y + tolerance) : x ≤ y := by
  obtain ⟨m, rfl⟩ := hx
  obtain ⟨n, rfl⟩ := hy
  have hstep : 0 < step := htolerance.trans_lt hlt
  have hproduct : (m : Rat) * step < (n + 1) * step := by linarith
  have hcount : (m : Rat) < n + 1 := lt_of_mul_lt_mul_right hproduct hstep.le
  have hle : m ≤ n := by
    have hcount' : m < n + 1 := by exact_mod_cast hcount
    omega
  have hle' : (m : Rat) ≤ n := by exact_mod_cast hle
  gcongr

/-- A whole number of steps, taken several times, is one again. -/
lemma Units.IsWhole.natCast_mul {step x : Rat} (h : IsWhole step x) (n : Nat) :
    IsWhole step (n * x) := by
  obtain ⟨k, rfl⟩ := h
  exact ⟨n * k, by push_cast; ring⟩

/-- The event lasts, and it begins and ends at steps. -/
structure Event.Fits (step : Rat) (e : Event Rat) : Prop where
  /-- It begins in time. -/
  onset_nonneg : 0 ≤ e.onset
  /-- It lasts. -/
  duration_pos : 0 < e.duration
  /-- It begins at a step. -/
  onset : Units.IsWhole step e.onset
  /-- It lasts whole steps. -/
  duration : Units.IsWhole step e.duration

namespace Event.Fits

variable {step : Rat} {e : Event Rat}

/-- It begins before it ends. -/
lemma onset_lt_stop (h : e.Fits step) : e.onset < e.stop :=
  lt_add_of_pos_right _ h.duration_pos

/-- It ends at a step. -/
lemma stop (h : e.Fits step) : Units.IsWhole step e.stop :=
  h.onset.add h.duration

end Event.Fits

namespace Grid

/-- The bars of the grid last whole steps, and the tolerance is shorter than a step. -/
structure Steps (g : Grid Rat) (step : Rat) : Prop where
  /-- Bars have a length. -/
  length_pos : 0 < g.length
  /-- The tolerance is not negative. -/
  tolerance_nonneg : 0 ≤ g.tolerance
  /-- The tolerance is shorter than a step. -/
  tolerance_lt : g.tolerance < step
  /-- Bars last whole steps. -/
  length : Units.IsWhole step g.length

namespace Steps

variable {g : Grid Rat} {step time : Rat} {bar : Nat} {e : Event Rat}

/-- What begins or ends within the tolerance of a step does so at the step. -/
lemma le_of_le_add (h : g.Steps step) {x y : Rat} (hx : Units.IsWhole step x)
    (hy : Units.IsWhole step y) (hle : x ≤ y + g.tolerance) : x ≤ y :=
  hx.le_of_le_add hy h.tolerance_nonneg h.tolerance_lt hle

/-- Bar lines stand at steps. -/
lemma line (h : g.Steps step) (bar : Nat) : Units.IsWhole step (bar * g.length) :=
  h.length.natCast_mul bar

/-- Since a bar lasts a step at least, the tolerance is shorter than a bar. -/
lemma usable (h : g.Steps step) : g.Usable := by
  refine ⟨h.length_pos, h.tolerance_nonneg, ?_⟩
  by_contra hle
  have hzero := h.le_of_le_add h.length (Units.isWhole_zero step) (by linarith)
  exact absurd h.length_pos (not_lt.mpr hzero)

/-- At steps a bar begins exactly at its bar line. -/
lemma barOf_le_iff (h : g.Steps step) (htime : 0 ≤ time) (hwhole : Units.IsWhole step time) :
    g.barOf time ≤ bar ↔ time < (bar + 1) * g.length := by
  have hline := h.line (bar + 1)
  push_cast at hline
  rw [Grid.barOf_le_iff h.usable htime]
  constructor
  · have htolerance := h.tolerance_nonneg
    intro hlt
    linarith
  · intro hlt
    by_contra hge
    exact absurd hlt (not_lt.mpr (h.le_of_le_add hline hwhole (not_lt.mp hge)))

/-- At steps a bar ends exactly at its bar line. -/
lemma barBefore_le_iff (h : g.Steps step) (hwhole : Units.IsWhole step time) :
    g.barBefore time ≤ bar ↔ time ≤ (bar + 1) * g.length := by
  have hline := h.line (bar + 1)
  push_cast at hline
  rw [Grid.barBefore_le_iff h.usable]
  constructor
  · exact h.le_of_le_add hwhole hline
  · have htolerance := h.tolerance_nonneg
    intro hle
    linarith

/-- What ends in a bar or behind it ends after the bar begins. -/
lemma le_barBefore_iff (h : g.Steps step) (htime : 0 < time) (hwhole : Units.IsWhole step time) :
    bar ≤ g.barBefore time ↔ bar * g.length < time := by
  cases bar with
  | zero => simpa using htime
  | succ bar =>
    rw [← not_lt, Nat.lt_succ_iff, h.barBefore_le_iff hwhole, not_le]
    push_cast
    rfl

/-- No event ends in a bar before the one in which it begins. -/
lemma barOf_le_barBefore (h : g.Steps step) (he : e.Fits step) :
    g.barOf e.onset ≤ g.barBefore e.stop := by
  rw [h.barOf_le_iff he.onset_nonneg he.onset]
  exact he.onset_lt_stop.trans_le ((h.barBefore_le_iff he.stop).mp le_rfl)

end Steps

/-! ## Parts of events -/

variable {g : Grid Rat} {step time : Rat} {bar number : Nat} {e : Event Rat}
  {events : List (Event Rat)}

/-- An event has a part in a bar if it begins before the bar ends and ends after it begins. -/
lemma piece_isSome_iff (he : e.onset < e.stop) (hlength : 0 < g.length) :
    (g.piece bar e).isSome ↔ e.onset < (bar + 1) * g.length ∧ bar * g.length < e.stop := by
  have hbar : (bar : Rat) * g.length < (bar + 1) * g.length := by linarith
  have hlt : max e.onset (bar * g.length) < min e.stop ((bar + 1) * g.length) ↔
      e.onset < (bar + 1) * g.length ∧ bar * g.length < e.stop := by
    rw [max_lt_iff, lt_min_iff, lt_min_iff]
    tauto
  rw [← hlt, piece]
  split
  · rename_i h
    simp [h]
  · rename_i h
    simp [h]

/-- The part of an event in a bar, where the times are known at which the part begins and ends. -/
lemma piece_eq {start stop : Rat} (hstart : max e.onset (bar * g.length) = start)
    (hstop : min e.stop ((bar + 1) * g.length) = stop) (hlt : start < stop) :
    g.piece bar e = some { offset := start - bar * g.length, duration := stop - start,
                           pitch := e.pitch, chord := e.chord } := by
  rw [piece, hstart, hstop, if_pos hlt]

/-- The part of an event in a bar. -/
lemma of_piece {f : Fragment Rat} (h : g.piece bar e = some f) :
    f.offset = max e.onset (bar * g.length) - bar * g.length ∧
      f.stop = min e.stop ((bar + 1) * g.length) - bar * g.length ∧ f.offset < f.stop ∧
      f.pitch = e.pitch ∧ f.chord = e.chord := by
  rw [piece] at h
  split at h
  · rename_i hlt
    obtain rfl := Option.some.inj h
    refine ⟨rfl, ?_, ?_, rfl, rfl⟩
    · unfold Fragment.stop
      ring
    · exact lt_add_of_pos_right _ (sub_pos.mpr hlt)
  · cases h

/-- An event that finds the bar open in which it begins is laid into every bar in which it has a
part. -/
lemma pieceOf_lay (hsteps : g.Steps step) (he : e.Fits step) (hopen : number ≤ g.barOf e.onset) :
    g.pieceOf bar (g.lay number e) = g.piece bar e := by
  have hfirst : (g.lay number e).first = g.barOf e.onset := max_eq_right hopen
  have hlast : (g.lay number e).last = g.barBefore e.stop := by
    change max (g.lay number e).first _ = _
    rw [hfirst, max_eq_right (hsteps.barOf_le_barBefore he)]
  rw [pieceOf, hfirst, hlast]
  split
  · rfl
  · rename_i hout
    cases hpiece : g.piece bar e with
    | none => rfl
    | some f =>
      have hsome : (g.piece bar e).isSome := by rw [hpiece]; rfl
      obtain ⟨hbefore, hbehind⟩ :=
        (piece_isSome_iff he.onset_lt_stop hsteps.length_pos).mp hsome
      have hend : 0 < e.stop := he.onset_nonneg.trans_lt he.onset_lt_stop
      exact absurd ⟨(hsteps.barOf_le_iff he.onset_nonneg he.onset).mpr hbefore,
        (hsteps.le_barBefore_iff hend he.stop).mpr hbehind⟩ hout

/-- Every event ends in the bar in which the later ones begin, or before. -/
def Settled (g : Grid Rat) (events : List (Event Rat)) : Prop :=
  events.Pairwise fun e f => g.barBefore e.stop ≤ g.barOf f.onset

/-- Settled events leave all their parts. -/
lemma filterMap_pieceOf_laid (hsteps : g.Steps step) (hfits : ∀ e ∈ events, e.Fits step)
    (hsettled : g.Settled events) (hopen : ∀ e ∈ events, number ≤ g.barOf e.onset) (bar : Nat) :
    (g.laid number events).filterMap (g.pieceOf bar) = events.filterMap (g.piece bar) := by
  induction events generalizing number with
  | nil => rfl
  | cons e rest ih =>
    obtain ⟨he, hrest⟩ := List.forall_mem_cons.mp hfits
    obtain ⟨hafter, hlater⟩ := List.pairwise_cons.mp hsettled
    have hown := hopen e List.mem_cons_self
    have hnext : ∀ f ∈ rest, (g.lay number e).last ≤ g.barOf f.onset := by
      intro f hf
      have hlast : (g.lay number e).last = g.barBefore e.stop := by
        change max (max number (g.barOf e.onset)) (g.barBefore e.stop) = _
        have := hsteps.barOf_le_barBefore he
        omega
      rw [hlast]
      exact hafter f hf
    rw [laid, List.filterMap_cons, List.filterMap_cons, pieceOf_lay hsteps he hown,
      ih hrest hlater hnext]

/-! ## Bars of settled events -/

/-- What is needed of events, of which `last` ends last, so that nothing of them is lost. -/
structure Written (g : Grid Rat) (step : Rat) (events : List (Event Rat)) (last : Event Rat) :
    Prop where
  /-- They begin and end at steps. -/
  fits : ∀ e ∈ events, e.Fits step
  /-- They end in the bar in which the later ones begin, or before. -/
  settled : g.Settled events
  /-- The event that ends last is one of them. -/
  last_mem : last ∈ events
  /-- None of them ends later. -/
  stop_le : ∀ e ∈ events, e.stop ≤ last.stop
  /-- There are no gaps between them. -/
  gapless : ∀ time, 0 ≤ time → time < last.stop → ∃ e ∈ events, e.onset ≤ time ∧ time < e.stop

/-- Silence from a time up to the end of its bar. -/
def ending (g : Grid Rat) (time : Rat) : List (Event Rat) :=
  if time < (g.barBefore time + 1) * g.length then
    [silence time ((g.barBefore time + 1) * g.length)] else []

/-- What fills the bar in which a time lies is what fills the open bar. -/
lemma filterMap_ending (hsteps : g.Steps step) (htime : 0 < time)
    (hwhole : Units.IsWhole step time) :
    (g.ending time).filterMap (g.piece (g.barBefore time)) =
      Scanner.filling g (time - g.barBefore time * g.length) := by
  have hbegun := (hsteps.le_barBefore_iff htime hwhole).mp (le_refl (g.barBefore time))
  have hline := hsteps.line (g.barBefore time + 1)
  push_cast at hline
  rw [ending, Scanner.filling]
  by_cases hlt : time < (g.barBefore time + 1) * g.length
  · have hmissing : g.tolerance < g.length - (time - g.barBefore time * g.length) := by
      by_contra hle
      exact absurd hlt (not_lt.mpr (hsteps.le_of_le_add hline hwhole (by linarith)))
    have hduration : (g.barBefore time + 1) * g.length - time =
        g.length - (time - g.barBefore time * g.length) := by ring
    have hstart : max (silence time ((g.barBefore time + 1) * g.length)).onset
        (g.barBefore time * g.length) = time := max_eq_left hbegun.le
    have hstop : min (silence time ((g.barBefore time + 1) * g.length)).stop
        ((g.barBefore time + 1) * g.length) = (g.barBefore time + 1) * g.length := by
      rw [stop_silence, min_self]
    have hpiece := piece_eq hstart hstop hlt
    rw [hduration] at hpiece
    rw [if_pos hlt, if_pos hmissing, List.filterMap_cons_some hpiece]
    rfl
  · have hfull : ¬ g.tolerance < g.length - (time - g.barBefore time * g.length) := by
      have htolerance := hsteps.tolerance_nonneg
      intro hmissing
      linarith
    rw [if_neg hlt, if_neg hfull]
    rfl

/-- Up to the end of its bar there are no gaps. -/
lemma tiles_ending (hsteps : g.Steps step) (hwhole : Units.IsWhole step time) :
    Tiles Event.onset Event.stop time (g.ending time)
      ((g.barBefore time + 1 : Nat) * g.length) := by
  have hle := (hsteps.barBefore_le_iff hwhole).mp (le_refl (g.barBefore time))
  unfold ending
  push_cast
  split
  · rename_i hlt
    refine ⟨onset_silence _ _, ?_, stop_silence _ _⟩
    rw [stop_silence]
    exact hlt
  · rename_i hge
    exact le_antisymm hle (not_lt.mp hge)

/-- It has no part in the bars before. -/
lemma filterMap_ending_of_lt (hsteps : g.Steps step) (htime : 0 < time)
    (hwhole : Units.IsWhole step time) (hbar : bar < g.barBefore time) :
    (g.ending time).filterMap (g.piece bar) = [] := by
  have hline := (hsteps.le_barBefore_iff htime hwhole).mp (Nat.succ_le_of_lt hbar)
  unfold ending
  split
  · rename_i hlt
    have hnone : g.piece bar (silence time ((g.barBefore time + 1) * g.length)) = none := by
      rw [piece, if_neg]
      refine not_lt.mpr ((min_le_right _ _).trans (le_trans ?_ (le_max_left _ _)))
      push_cast at hline
      exact hline.le
    rw [List.filterMap_cons_none hnone]
    rfl
  · rfl

/-- A bar that holds the parts of events that lie in it. -/
def barAt (g : Grid Rat) (events : List (Event Rat)) (bar : Nat) : Slot Rat :=
  { index := bar, voice := g.voice, fragments := events.filterMap (g.piece bar), unit := 0 }

namespace Written

variable {last : Event Rat}

/-- Events without gaps. -/
lemma of_tiles (hsteps : g.Steps step) (hfits : ∀ e ∈ events, e.Fits step)
    (h : Tiles Event.onset Event.stop 0 events last.stop) (hlast : last ∈ events) :
    g.Written step events last := by
  refine ⟨hfits, ?_, hlast, fun e he => (h.mem he).2.2, fun time => h.exists_mem⟩
  refine h.pairwise.imp_of_mem fun he _ hle => ?_
  have hfits' := hfits _ he
  exact barBefore_le_barOf hsteps.usable
    (hfits'.onset_nonneg.trans hfits'.onset_lt_stop.le) hle

/-- The bar in which the last event ends stays open. -/
lemma opened_eq (h : g.Written step events last) (hsteps : g.Steps step) :
    g.opened 0 events = g.barBefore last.stop := by
  have hlast := h.fits last h.last_mem
  refine le_antisymm (opened_le (Nat.zero_le _) fun e he => ?_) (barBefore_le_opened h.last_mem)
  have hend : g.barBefore e.stop ≤ g.barBefore last.stop := by
    rw [hsteps.barBefore_le_iff (h.fits e he).stop]
    exact (h.stop_le e he).trans ((hsteps.barBefore_le_iff hlast.stop).mp le_rfl)
  exact ⟨(hsteps.barOf_le_barBefore (h.fits e he)).trans hend, hend⟩

/-- No bar is empty up to the one in which the last event ends. -/
lemma pieces_ne_nil (h : g.Written step events last) (hsteps : g.Steps step)
    (hbar : bar ≤ g.barBefore last.stop) : events.filterMap (g.piece bar) ≠ [] := by
  have hlast := h.fits last h.last_mem
  have hlength := hsteps.length_pos
  have hend : 0 < last.stop := hlast.onset_nonneg.trans_lt hlast.onset_lt_stop
  have hline := (hsteps.le_barBefore_iff hend hlast.stop).mp hbar
  obtain ⟨e, he, hbegun, hsounds⟩ := h.gapless (bar * g.length) (by positivity) hline
  have hsome : (g.piece bar e).isSome := by
    rw [piece_isSome_iff (h.fits e he).onset_lt_stop hlength]
    exact ⟨by linarith, hsounds⟩
  obtain ⟨f, hf⟩ := Option.isSome_iff_exists.mp hsome
  exact List.ne_nil_of_mem (List.mem_filterMap.mpr ⟨e, he, hf⟩)

/-- The open bar is filled up to its end. -/
lemma lastBar_eq (h : g.Written step events last) (hsteps : g.Steps step) :
    Scanner.lastBar g (g.laid 0 events) (g.barBefore last.stop) =
      [g.barAt (events ++ g.ending last.stop) (g.barBefore last.stop)] := by
  have hlast := h.fits last h.last_mem
  have hend : 0 < last.stop := hlast.onset_nonneg.trans_lt hlast.onset_lt_stop
  have hlaid := filterMap_pieceOf_laid hsteps h.fits h.settled (fun _ _ => Nat.zero_le _)
    (g.barBefore last.stop)
  have hbegun := (hsteps.le_barBefore_iff hend hlast.stop).mp (le_refl (g.barBefore last.stop))
  have hends := (hsteps.barBefore_le_iff hlast.stop).mp (le_refl (g.barBefore last.stop))
  obtain ⟨first, rest, hpieces⟩ := List.exists_cons_of_ne_nil (h.pieces_ne_nil hsteps le_rfl)
  have hcovered : Scanner.covered first rest =
      min last.stop ((g.barBefore last.stop + 1) * g.length) -
        g.barBefore last.stop * g.length := by
    refine Scanner.covered_eq (fun f hf => ?_) ?_
    · rw [← hpieces] at hf
      obtain ⟨e, he, hpiece⟩ := List.mem_filterMap.mp hf
      rw [(of_piece hpiece).2.1]
      exact sub_le_sub_right (min_le_min_right _ (h.stop_le e he)) _
    · have hsome : (g.piece (g.barBefore last.stop) last).isSome := by
        rw [piece_isSome_iff hlast.onset_lt_stop hsteps.length_pos]
        exact ⟨hlast.onset_lt_stop.trans_le hends, hbegun⟩
      obtain ⟨f, hf⟩ := Option.isSome_iff_exists.mp hsome
      refine ⟨f, ?_, (of_piece hf).2.1⟩
      rw [← hpieces]
      exact List.mem_filterMap.mpr ⟨last, h.last_mem, hf⟩
  rw [min_eq_left hends] at hcovered
  rw [Scanner.lastBar, hlaid, barAt, List.filterMap_append, filterMap_ending hsteps hend hlast.stop]
  simp only [hpieces, hcovered]

/-- The bars hold the parts of the events that lie in them. -/
theorem bars_eq (h : g.Written step events last) (hsteps : g.Steps step) :
    g.bars (g.laid 0 events) (g.opened 0 events) =
      (List.range (g.barBefore last.stop + 1)).map (g.barAt (events ++ g.ending last.stop)) := by
  have hlast := h.fits last h.last_mem
  have hend : 0 < last.stop := hlast.onset_nonneg.trans_lt hlast.onset_lt_stop
  have hclosed : (List.range (g.barBefore last.stop)).map (g.slot (g.laid 0 events)) =
      (List.range (g.barBefore last.stop)).map (g.barAt (events ++ g.ending last.stop)) := by
    refine List.map_congr_left fun bar hbar => ?_
    have hlt : bar < g.barBefore last.stop := List.mem_range.mp hbar
    have hpieces := h.pieces_ne_nil hsteps hlt.le
    have hempty : (events.filterMap (g.piece bar)).isEmpty = false := by simpa using hpieces
    rw [slot, content, filterMap_pieceOf_laid hsteps h.fits h.settled (fun _ _ => Nat.zero_le _),
      barAt, List.filterMap_append, filterMap_ending_of_lt hsteps hend hlast.stop hlt,
      List.append_nil, hempty]
    rfl
  rw [bars, h.opened_eq hsteps, hclosed, h.lastBar_eq hsteps, List.range_succ, List.map_append]
  rfl

end Written

/-! ## Parts without gaps -/

/-- A time counted from the start of a bar, cut off at the ends of the bar. -/
def within (g : Grid Rat) (bar : Nat) (time : Rat) : Rat :=
  min (max time (bar * g.length)) ((bar + 1) * g.length) - bar * g.length

/-- Before the bar it is the start of the bar that counts. -/
lemma within_of_le (hlength : 0 < g.length) (h : time ≤ bar * g.length) :
    g.within bar time = 0 := by
  have hbar : (bar : Rat) * g.length ≤ (bar + 1) * g.length := by linarith
  rw [within, max_eq_right h, min_eq_left hbar, sub_self]

/-- Behind the bar it is the end of the bar that counts. -/
lemma within_of_ge (h : (bar + 1) * g.length ≤ time) : g.within bar time = g.length := by
  rw [within, min_eq_right (h.trans (le_max_left _ _))]
  ring

/-- Events without gaps have parts without gaps. -/
lemma tiles_pieces (hlength : 0 < g.length) {a b : Rat}
    (h : Tiles Event.onset Event.stop a events b) (bar : Nat) :
    Tiles Fragment.offset Fragment.stop (g.within bar a) (events.filterMap (g.piece bar))
      (g.within bar b) := by
  induction events generalizing a with
  | nil => exact congrArg (g.within bar) h
  | cons e rest ih =>
    obtain ⟨rfl, hlasts, hrest⟩ := h
    have hnext := ih hrest
    cases hpiece : g.piece bar e with
    | some f =>
      obtain ⟨hoffset, hstop, hlt, -, -⟩ := of_piece hpiece
      have hlt' : max e.onset (bar * g.length) < min e.stop ((bar + 1) * g.length) := by
        rw [hoffset, hstop] at hlt
        linarith
      have hbegin : g.within bar e.onset = f.offset := by
        rw [within, hoffset, min_eq_left (hlt'.le.trans (min_le_right _ _))]
      have hend : g.within bar e.stop = f.stop := by
        have hbehind : bar * g.length < e.stop :=
          (le_max_right _ _).trans_lt (hlt'.trans_le (min_le_left _ _))
        rw [within, hstop, max_eq_left hbehind.le]
      rw [List.filterMap_cons_some hpiece, hbegin]
      exact ⟨rfl, hlt, hend ▸ hnext⟩
    | none =>
      -- The event lies before the bar or behind it, so its ends fall together.
      have hbar : (bar : Rat) * g.length < (bar + 1) * g.length := by linarith
      have hsame : g.within bar e.onset = g.within bar e.stop := by
        by_cases hbefore : e.stop ≤ bar * g.length
        · rw [within_of_le hlength hbefore, within_of_le hlength (hlasts.le.trans hbefore)]
        · have hbehind : (bar + 1) * g.length ≤ e.onset := by
            by_contra hlt
            have hsome : (g.piece bar e).isSome := by
              rw [piece_isSome_iff hlasts hlength]
              exact ⟨not_le.mp hlt, not_le.mp hbefore⟩
            rw [hpiece] at hsome
            cases hsome
          rw [within_of_ge hbehind, within_of_ge (hbehind.trans hlasts.le)]
      rw [List.filterMap_cons_none hpiece, hsame]
      exact hnext

/-- Every event belongs to a layer of events that follow each other without gaps up to a time. -/
def Layers (stop : Rat) (events : List (Event Rat)) : Prop :=
  ∀ e ∈ events, ∃ layer, e ∈ layer ∧ (∀ f ∈ layer, f ∈ events) ∧
    Tiles Event.onset Event.stop 0 layer stop

/-- The parts of a layer fill a bar. -/
lemma tiles_bar (hlength : 0 < g.length) {count : Nat}
    (h : Tiles Event.onset Event.stop 0 events (count * g.length)) (hbar : bar < count) :
    Tiles Fragment.offset Fragment.stop 0 (events.filterMap (g.piece bar)) g.length := by
  have hpieces := tiles_pieces hlength h bar
  have hend : (bar + 1) * g.length ≤ count * g.length := by
    have hle : (bar : Rat) + 1 ≤ count := by exact_mod_cast hbar
    gcongr
  rw [within_of_le hlength (show (0 : Rat) ≤ bar * g.length by positivity),
    within_of_ge hend] at hpieces
  exact hpieces

/-- Events in layers give a bar in layers. -/
lemma layered_barAt (hlength : 0 < g.length) {count : Nat} (h : Layers (count * g.length) events)
    (hne : events ≠ []) (hbar : bar < count) :
    Slot.Layered g.length (g.barAt events bar).fragments := by
  refine ⟨?_, fun f hf => ?_⟩
  · obtain ⟨e, he⟩ := List.exists_mem_of_ne_nil events hne
    obtain ⟨layer, -, hsub, hlayer⟩ := h e he
    obtain ⟨f, hf, -⟩ := (tiles_bar hlength hlayer hbar).exists_mem le_rfl hlength
    obtain ⟨e', he', hpiece⟩ := List.mem_filterMap.mp hf
    exact List.ne_nil_of_mem (List.mem_filterMap.mpr ⟨e', hsub e' he', hpiece⟩)
  · obtain ⟨e, he, hpiece⟩ := List.mem_filterMap.mp hf
    obtain ⟨layer, hmem, hsub, hlayer⟩ := h e he
    refine ⟨layer.filterMap (g.piece bar), List.mem_filterMap.mpr ⟨e, hmem, hpiece⟩,
      fun f' hf' => ?_, tiles_bar hlength hlayer hbar⟩
    obtain ⟨e', he', hpiece'⟩ := List.mem_filterMap.mp hf'
    exact List.mem_filterMap.mpr ⟨e', hsub e' he', hpiece'⟩

/-- Parts of events last whole steps. -/
lemma isWhole_barAt (hsteps : g.Steps step) (hfits : ∀ e ∈ events, e.Fits step)
    {f : Fragment Rat} (hf : f ∈ (g.barAt events bar).fragments) :
    Units.IsWhole step f.duration := by
  obtain ⟨e, he, hpiece⟩ := List.mem_filterMap.mp hf
  obtain ⟨hoffset, hstop, -, -, -⟩ := of_piece hpiece
  have hduration : f.duration = min e.stop ((bar + 1) * g.length) -
      max e.onset (bar * g.length) := by
    have heq : f.stop = f.offset + f.duration := rfl
    linarith
  have hline := hsteps.line (bar + 1)
  push_cast at hline
  rw [hduration]
  refine Units.IsWhole.sub ?_ ?_
  · rcases min_choice e.stop ((bar + 1) * g.length) with heq | heq
    · rw [heq]
      exact (hfits e he).stop
    · rw [heq]
      exact hline
  · rcases max_choice e.onset (bar * g.length) with heq | heq
    · rw [heq]
      exact (hfits e he).onset
    · rw [heq]
      exact hsteps.line bar

/-! ## All bars -/

/-- No events give no bars. -/
lemma cut_nil (hg : g.Usable) (hshift : g.shift? = none) : g.cut [] = [] := by
  rw [cut_eq hg hshift fun _ h => absurd h List.not_mem_nil]
  rfl

/-- A bar in layers is full, so it is not moved to its end. -/
lemma padPickup_of_layered {s : Slot Rat} (htolerance : 0 ≤ g.tolerance)
    (h : Slot.Layered g.length s.fragments) : s.padPickup g = s := by
  obtain ⟨first, rest, heq⟩ := List.exists_cons_of_ne_nil h.ne_nil
  have hcovered : Scanner.covered first rest = g.length := by
    refine Scanner.covered_eq (fun f hf => (h.within (heq ▸ hf)).2.2) ?_
    obtain ⟨layer, hmem, hsub, htiles⟩ := h.exists_layer first (heq ▸ List.mem_cons_self)
    obtain ⟨f, hf, hstop⟩ := htiles.exists_stop_eq (List.ne_nil_of_mem hmem)
    exact ⟨f, heq ▸ hsub f hf, hstop⟩
  have hfull : g.length - Scanner.covered first rest ≤ g.tolerance := by
    rw [hcovered, sub_self]
    exact htolerance
  rw [Slot.padPickup, heq]
  simp only
  rw [if_pos (Or.inr hfull)]

/-- A bar that holds the parts of events, with its mark. -/
def markedBar (g : Grid Rat) (events : List (Event Rat)) (bar : Nat) : Slot Rat :=
  { g.barAt events bar with mark := g.markers.at? bar }

/-- The bars of a voice hold the parts of its events. -/
theorem Written.cut_eq_map {last : Event Rat} (h : g.Written step (g.filled 0 events) last)
    (hsteps : g.Steps step) (hevents : ∀ e ∈ events, 0 ≤ e.onset ∧ 0 < e.duration)
    (hshift : g.shift? = none)
    (hlayers : Layers ((g.barBefore last.stop + 1 : Nat) * g.length)
      (g.filled 0 events ++ g.ending last.stop)) :
    g.cut events = (List.range (g.barBefore last.stop + 1)).map
      (g.markedBar (g.filled 0 events ++ g.ending last.stop)) := by
  have hne : g.filled 0 events ++ g.ending last.stop ≠ [] :=
    List.ne_nil_of_mem (List.mem_append_left _ h.last_mem)
  have hfirst : (g.barAt (g.filled 0 events ++ g.ending last.stop) 0).padPickup g =
      g.barAt (g.filled 0 events ++ g.ending last.stop) 0 :=
    padPickup_of_layered hsteps.tolerance_nonneg
      (layered_barAt hsteps.length_pos hlayers hne (Nat.zero_lt_succ _))
  have hunmoved : g.markPickup (g.bars (g.laid 0 (g.filled 0 events))
      (g.opened 0 (g.filled 0 events))) = (List.range (g.barBefore last.stop + 1)).map
        (g.barAt (g.filled 0 events ++ g.ending last.stop)) := by
    rw [h.bars_eq hsteps, List.range_succ_eq_map, List.map_cons, markPickup, hshift, hfirst]
    simp
  rw [cut_eq hsteps.usable hshift hevents, hunmoved, mark, List.map_map]
  rfl

end Grid

end PatternScore
