import PatternScore.Proofs.Bar.Survival

/-!
# Music that begins whole bars later

The grid of bars looks the same from every bar line. Events that are delayed by whole bars are laid
in bars that lie as many bars behind (`Grid.laid_delay`), whatever the tolerance does near bar
lines, and leave the same parts there. Where silence is filled, the bars before them hold a rest
each. Hence the bars of a voice that begins `k` bars later are `k` bars of rest and then its bars as
they were (`Grid.cut_delay`).
-/

namespace PatternScore

/-- An event that begins later. -/
def Event.delay (time : Rat) (e : Event Rat) : Event Rat :=
  { e with onset := e.onset + time }

/-- A laid event, some bars later. -/
def Laid.delay (g : Grid Rat) (k : Nat) (l : Laid) : Laid :=
  ⟨l.event.delay (k * g.length), l.first + k, l.last + k⟩

/-- A bar with another number. -/
def Slot.renumber {τ : Type} (count : Int) (s : Slot τ) : Slot τ :=
  { s with index := s.index + count }

namespace Grid

variable {g : Grid Rat} {k : Nat}

/-! ## Bars of later times -/

/-- What begins some bars later begins as many bars behind. -/
lemma barOf_add (h : g.Usable) {time : Rat} (htime : 0 ≤ time) :
    g.barOf (time + k * g.length) = g.barOf time + k := by
  have hnonneg : 0 ≤ (time + g.tolerance) / g.length :=
    div_nonneg (add_nonneg htime h.tolerance_nonneg) h.length_pos.le
  have hsplit : (time + k * g.length + g.tolerance) / g.length =
      (time + g.tolerance) / g.length + k := by
    have := h.length_pos.ne'
    field_simp
    ring
  rw [barOf, hsplit, Nat.floor_add_natCast hnonneg, barOf]

/-- What ends some bars later goes as far beyond a bar that is as many bars behind. -/
lemma barBefore_add_le_iff (h : g.Usable) {time : Rat} {bar : Nat} :
    g.barBefore (time + k * g.length) ≤ bar + k ↔ g.barBefore time ≤ bar := by
  rw [barBefore_le_iff h, barBefore_le_iff h]
  push_cast
  constructor <;> intro hle <;> linarith

/-- What ends later ends as many bars behind, unless it ends before the first bar line. -/
lemma max_barBefore_add (h : g.Usable) (time : Rat) (bar : Nat) :
    max (bar + k) (g.barBefore (time + k * g.length)) = max bar (g.barBefore time) + k := by
  apply le_antisymm
  · refine max_le (Nat.add_le_add_right (le_max_left _ _) k) ?_
    exact (barBefore_add_le_iff h).mpr (le_max_right _ _)
  · obtain ⟨n, hn⟩ := Nat.exists_eq_add_of_le'
      ((Nat.le_add_left k bar).trans (le_max_left _ (g.barBefore (time + k * g.length))))
    rw [hn]
    refine Nat.add_le_add_right (max_le ?_ ?_) k
    · exact Nat.le_of_add_le_add_right (hn ▸ le_max_left _ _)
    · exact (barBefore_add_le_iff h).mp (hn ▸ le_max_right _ _)

/-! ## Events that are laid later -/

/-- A delayed event ends as much later as it begins. -/
lemma stop_delay (e : Event Rat) (time : Rat) : (e.delay time).stop = e.stop + time :=
  add_right_comm _ _ _

/-- A delayed event is laid as many bars behind, if the open bar is as many bars behind. -/
lemma lay_delay (h : g.Usable) (opened : Nat) {e : Event Rat} (honset : 0 ≤ e.onset) :
    g.lay (opened + k) (e.delay (k * g.length)) = (g.lay opened e).delay g k := by
  have hfirst : max (opened + k) (g.barOf (e.onset + k * g.length)) =
      max opened (g.barOf e.onset) + k := by
    rw [barOf_add h honset, Nat.add_max_add_right]
  unfold lay
  rw [stop_delay]
  simp only [Event.delay, hfirst, max_barBefore_add h]
  rfl

/-- Delayed events are laid in later bars. -/
lemma laid_delay (h : g.Usable) (opened : Nat) {events : List (Event Rat)}
    (honset : ∀ e ∈ events, 0 ≤ e.onset) :
    g.laid (opened + k) (events.map (Event.delay (k * g.length))) =
      (g.laid opened events).map (Laid.delay g k) ∧
    g.opened (opened + k) (events.map (Event.delay (k * g.length))) =
      g.opened opened events + k := by
  induction events generalizing opened with
  | nil => exact ⟨rfl, rfl⟩
  | cons e rest ih =>
    obtain ⟨he, hrest⟩ := List.forall_mem_cons.mp honset
    obtain ⟨hlaid, hopened⟩ := ih (g.lay opened e).last hrest
    rw [List.map_cons, Grid.laid, Grid.opened, lay_delay h opened he]
    exact ⟨congrArg _ hlaid, hopened⟩

/-- Silence is filled in later, too. -/
lemma filled_delay (time expected : Rat) (events : List (Event Rat)) :
    g.filled (expected + time) (events.map (Event.delay time)) =
      (g.filled expected events).map (Event.delay time) := by
  induction events generalizing expected with
  | nil => rfl
  | cons e rest ih =>
    have hstop : max (expected + time) (e.delay time).stop = max expected e.stop + time := by
      rw [stop_delay, max_add_add_right]
    have hgap : expected + time + g.tolerance < (e.delay time).onset ↔
        expected + g.tolerance < e.onset := by
      change _ < e.onset + time ↔ _
      constructor <;> intro hlt <;> linarith
    have hsilence : silence (expected + time) (e.delay time).onset =
        (silence expected e.onset).delay time := by
      simp [silence, Event.delay]
    rw [List.map_cons, filled, filled, hstop, ih, hsilence]
    simp only [hgap]
    split <;> rfl

/-! ## Parts in later bars -/

/-- Its part in a bar is what it was as many bars before. -/
lemma piece_delay (bar : Nat) (e : Event Rat) :
    g.piece (bar + k) (e.delay (k * g.length)) = g.piece bar e := by
  have hline : ((bar + k : Nat) : Rat) * g.length = bar * g.length + k * g.length := by
    push_cast
    ring
  have hnext : (((bar + k : Nat) : Rat) + 1) * g.length =
      (bar + 1) * g.length + k * g.length := by
    push_cast
    ring
  unfold piece
  rw [stop_delay, hline, hnext]
  simp only [Event.delay, max_add_add_right, min_add_add_right, add_lt_add_iff_right,
    add_sub_add_right_eq_sub]

/-- What it leaves in a bar is what was left as many bars before. -/
lemma pieceOf_delay (bar : Nat) (l : Laid) :
    g.pieceOf (bar + k) (l.delay g k) = g.pieceOf bar l := by
  unfold pieceOf
  simp only [Laid.delay, piece_delay, Nat.add_le_add_iff_right]

/-- In the first bars it leaves nothing. -/
lemma pieceOf_delay_of_lt {bar : Nat} (hbar : bar < k) (l : Laid) :
    g.pieceOf bar (l.delay g k) = none := by
  refine if_neg fun h => ?_
  have hfirst : l.first + k ≤ bar := h.1
  omega

/-! ## The silence before the first event -/

/-- A bar of rest. -/
def restBar (g : Grid Rat) (bar : Nat) : Slot Rat :=
  { index := bar, voice := g.voice, fragments := [Scanner.wholeRest g], unit := 0 }

/-- The silence before something is laid from the first bar on. -/
lemma lay_silence (h : g.Usable) (stop : Rat) :
    g.lay 0 (silence 0 stop) = ⟨silence 0 stop, 0, g.barBefore stop⟩ := by
  have hfirst : g.barOf 0 = 0 := by simpa using barOf_line h 0
  unfold lay
  simp only [stop_silence, onset_silence, hfirst, max_self, Nat.zero_max]

/-- Silence takes up every bar before the one in which it ends. -/
lemma pieceOf_silence_of_lt (h : g.Usable) {time : Rat} (htime : 0 ≤ time) {bar : Nat}
    (hbar : bar < k) :
    g.pieceOf bar (g.lay 0 (silence 0 (time + k * g.length))) = some (Scanner.wholeRest g) := by
  have hlength := h.length_pos
  have hlt := h.tolerance_lt
  have hnext : ((bar : Rat) + 1) * g.length ≤ k * g.length := by
    have hbar' : (bar : Rat) + 1 ≤ k := by exact_mod_cast hbar
    gcongr
  have hstands : bar ≤ g.barBefore (time + k * g.length) := by
    by_contra hbehind
    obtain ⟨before, rfl⟩ := Nat.exists_eq_succ_of_ne_zero (Nat.ne_zero_of_lt (not_le.mp hbehind))
    have hle := (barBefore_le_iff h).mp (Nat.lt_succ_iff.mp (not_le.mp hbehind))
    push_cast at hnext
    linarith
  have hline : (0 : Rat) ≤ bar * g.length := by positivity
  have hstart : (bar : Rat) * g.length < (bar + 1) * g.length := by linarith
  rw [lay_silence h, pieceOf, if_pos ⟨Nat.zero_le _, hstands⟩, piece, stop_silence, onset_silence,
    max_eq_right hline, min_eq_right (by linarith), if_pos hstart]
  simp [silence, Scanner.wholeRest, Scalar.rat_zero]
  ring

/-- From the bar in which the delayed events begin, silence leaves the parts that it leaves without
the delay; what is no longer than the tolerance leaves none. -/
lemma pieceOf_silence_add (h : g.Usable) (hk : 0 < k) (time : Rat) (bar : Nat) :
    g.pieceOf (bar + k) (g.lay 0 (silence 0 (time + k * g.length))) =
      if g.tolerance < time then g.pieceOf bar (g.lay 0 (silence 0 time)) else none := by
  have hlength := h.length_pos
  have hstands : bar + k ≤ g.barBefore (time + k * g.length) ↔
      g.tolerance < time ∧ bar ≤ g.barBefore time := by
    cases bar with
    | zero =>
      obtain ⟨before, rfl⟩ := Nat.exists_eq_succ_of_ne_zero hk.ne'
      rw [Nat.zero_add, Nat.succ_le_iff, ← not_le, barBefore_le_iff h]
      push_cast
      constructor
      · intro hlt
        exact ⟨by linarith, Nat.zero_le _⟩
      · rintro ⟨hlt, -⟩ hle
        linarith
    | succ bar =>
      rw [Nat.succ_add, Nat.succ_le_iff, ← not_le, barBefore_add_le_iff h, not_le,
        Nat.succ_le_iff]
      refine ⟨fun hlt => ⟨?_, hlt⟩, And.right⟩
      have hbehind := (barBefore_le_iff h).not.mp (not_le.mpr hlt)
      have hline : (0 : Rat) ≤ ((bar : Rat) + 1) * g.length := by positivity
      linarith
  have hpiece : g.piece (bar + k) (silence 0 (time + k * g.length)) =
      g.piece bar (silence 0 time) := by
    have hline : (0 : Rat) ≤ (bar + k : Nat) * g.length := by positivity
    have hbegins : ((silence 0 time).delay (k * g.length)).onset ≤
        (bar + k : Nat) * g.length := by
      have hbar : (0 : Rat) ≤ bar * g.length := by positivity
      change 0 + (k : Rat) * g.length ≤ _
      push_cast
      linarith
    rw [← piece_delay (k := k) bar (silence 0 time), piece, piece, stop_delay, stop_silence,
      stop_silence, onset_silence, max_eq_right hline, max_eq_right hbegins]
    rfl
  rw [lay_silence h, lay_silence h]
  simp only [pieceOf, hpiece, Nat.zero_le, true_and, hstands]
  split_ifs <;> simp_all

/-! ## All bars -/

variable {l l' : List Laid}

/-- What is laid when the events begin later: in the first bars a rest, then what was there. -/
structure DelayedBy (g : Grid Rat) (k : Nat) (l l' : List Laid) : Prop where
  /-- The first bars hold a rest each. -/
  before : ∀ bar < k, l'.filterMap (g.pieceOf bar) = [Scanner.wholeRest g]
  /-- The bars behind them hold what was there. -/
  behind : ∀ bar, l'.filterMap (g.pieceOf (bar + k)) = l.filterMap (g.pieceOf bar)

/-- Bars of delayed events are bars of rest and then the bars as they were. -/
lemma DelayedBy.bars_eq (h : g.DelayedBy k l l') (number : Nat) :
    g.bars l' (number + k) =
      (List.range k).map g.restBar ++ (g.bars l number).map (Slot.renumber k) := by
  have hslot : ∀ bar, g.slot l' (bar + k) = (g.slot l bar).renumber k := by
    intro bar
    simp [slot, content, h.behind, Slot.renumber]
  have hrest : ∀ bar < k, g.slot l' bar = g.restBar bar := by
    intro bar hbar
    simp [slot, content, h.before bar hbar, restBar]
  have hlast : Scanner.lastBar g l' (number + k) =
      (Scanner.lastBar g l number).map (Slot.renumber k) := by
    unfold Scanner.lastBar
    rw [h.behind]
    cases l.filterMap (g.pieceOf number) with
    | nil => rfl
    | cons first rest => simp [Slot.renumber]
  rw [bars, bars, hlast, Nat.add_comm, List.range_add, List.map_append, List.append_assoc,
    List.map_append, List.map_map, List.map_map]
  congr 1
  · exact List.map_congr_left fun bar hbar => hrest bar (List.mem_range.mp hbar)
  · congr 1
    exact List.map_congr_left fun bar _ => by rw [Function.comp, Nat.add_comm, hslot, Function.comp]

/-- The silence before delayed events takes up the bars before them. -/
lemma delayedBy_silence (h : g.Usable) (hk : 0 < k) {time : Rat} (htime : 0 ≤ time)
    (l : List Laid) :
    g.DelayedBy k (if g.tolerance < time then g.lay 0 (silence 0 time) :: l else l)
      (g.lay 0 (silence 0 (time + k * g.length)) :: l.map (Laid.delay g k)) where
  before bar hbar := by
    rw [List.filterMap_cons_some (pieceOf_silence_of_lt h htime hbar), List.filterMap_map]
    congr 1
    exact List.filterMap_eq_nil_iff.mpr fun l _ => pieceOf_delay_of_lt hbar l
  behind bar := by
    have hmoved : (l.map (Laid.delay g k)).filterMap (g.pieceOf (bar + k)) =
        l.filterMap (g.pieceOf bar) := by
      rw [List.filterMap_map]
      exact List.filterMap_congr fun l _ => pieceOf_delay bar l
    rw [List.filterMap_cons, hmoved, pieceOf_silence_add h hk]
    split_ifs
    · rw [List.filterMap_cons]
    · rfl

/-! ## Delayed events among the bars -/

/-- Where an event is laid does not depend on the open bar, as long as that is not behind it. -/
lemma laid_eq_of_le {opened : Nat} {e : Event Rat} (rest : List (Event Rat))
    (hopened : opened ≤ g.barOf e.onset) :
    g.laid opened (e :: rest) = g.laid 0 (e :: rest) ∧
      g.opened opened (e :: rest) = g.opened 0 (e :: rest) := by
  have hlay : g.lay opened e = g.lay 0 e := by
    unfold lay
    rw [max_eq_right hopened, max_eq_right (Nat.zero_le _)]
  rw [laid, laid, Grid.opened, Grid.opened, hlay]
  exact ⟨rfl, rfl⟩

/-- The silence before the first event is laid before it, and moves nothing. -/
lemma laid_filled_zero (h : g.Usable) (hfill : g.fillGaps = true) {e : Event Rat}
    (honset : 0 ≤ e.onset) (hstop : 0 ≤ e.stop) (rest : List (Event Rat)) :
    g.laid 0 (g.filled 0 (e :: rest)) =
      (if g.tolerance < e.onset then
        g.lay 0 (silence 0 e.onset) :: g.laid 0 (e :: g.filled e.stop rest)
      else g.laid 0 (e :: g.filled e.stop rest)) ∧
    g.opened 0 (g.filled 0 (e :: rest)) = g.opened 0 (e :: g.filled e.stop rest) := by
  have hbefore : (g.lay 0 (silence 0 e.onset)).last ≤ g.barOf e.onset := by
    rw [lay_silence h]
    exact barBefore_le_barOf h honset le_rfl
  obtain ⟨hlaid, hopened⟩ := laid_eq_of_le (g.filled e.stop rest) hbefore
  rw [filled, hfill, Bool.true_and, zero_add, max_eq_right hstop]
  by_cases hgap : g.tolerance < e.onset
  · rw [if_pos (decide_eq_true hgap), if_pos hgap, laid, Grid.opened, hlaid, hopened]
    exact ⟨rfl, rfl⟩
  · rw [if_neg (by simpa using hgap), if_neg hgap]
    exact ⟨rfl, rfl⟩

/-- Delayed events are laid behind bars of rest, if silence is filled. -/
lemma delayedBy_filled (h : g.Usable) (hfill : g.fillGaps = true) (hk : 0 < k) {e : Event Rat}
    {rest : List (Event Rat)} (hevents : ∀ f ∈ e :: rest, 0 ≤ f.onset ∧ 0 < f.duration) :
    let later := (e :: rest).map (Event.delay (k * g.length))
    g.DelayedBy k (g.laid 0 (g.filled 0 (e :: rest))) (g.laid 0 (g.filled 0 later)) ∧
      g.opened 0 (g.filled 0 later) = g.opened 0 (g.filled 0 (e :: rest)) + k := by
  intro later
  obtain ⟨⟨honset, hduration⟩, hrest⟩ := List.forall_mem_cons.mp hevents
  have hstop : 0 ≤ e.stop := add_nonneg honset hduration.le
  have hlater : g.tolerance < (e.delay (k * g.length)).onset := by
    have hlength := h.length_pos
    have hone : (1 : Rat) ≤ k := by exact_mod_cast hk
    have hfirst : 1 * g.length ≤ k * g.length := by gcongr
    have hlt := h.tolerance_lt
    change _ < e.onset + k * g.length
    linarith
  have honset' : 0 ≤ (e.delay (k * g.length)).onset := h.tolerance_nonneg.trans hlater.le
  have hstop' : 0 ≤ (e.delay (k * g.length)).stop := add_nonneg honset' hduration.le
  -- Behind the first silence, everything is laid as without the delay, but later.
  have hnonneg : ∀ f ∈ e :: g.filled e.stop rest, 0 ≤ f.onset :=
    List.forall_mem_cons.mpr
      ⟨honset, fun f hf => (filled_lasts h.tolerance_nonneg hstop hrest f hf).1⟩
  have hbegins : 0 + k ≤ g.barOf (e.delay (k * g.length)).onset := by
    change 0 + k ≤ g.barOf (e.onset + k * g.length)
    rw [barOf_add h honset]
    omega
  obtain ⟨hlaid, hopened⟩ := laid_delay (k := k) h 0 hnonneg
  rw [List.map_cons, ← filled_delay, ← stop_delay] at hlaid hopened
  obtain ⟨hfrom, hfrom'⟩ := laid_eq_of_le _ hbegins
  obtain ⟨hlaid₁, hopened₁⟩ := laid_filled_zero h hfill honset hstop rest
  obtain ⟨hlaid₂, hopened₂⟩ := laid_filled_zero h hfill honset' hstop'
    (rest.map (Event.delay (k * g.length)))
  have hlaid' : g.laid 0 (g.filled 0 later) = g.lay 0 (silence 0 (e.onset + k * g.length)) ::
      (g.laid 0 (e :: g.filled e.stop rest)).map (Laid.delay g k) := by
    rw [← hlaid, hfrom]
    exact hlaid₂.trans (if_pos hlater)
  rw [hlaid', hlaid₁, hopened₁, ← hopened, hfrom']
  exact ⟨delayedBy_silence h hk honset _, hopened₂⟩

/-- A grid without repeat marks and without an upbeat on which silence is filled. -/
structure Plain (g : Grid Rat) : Prop extends g.Usable where
  /-- Silence is filled. -/
  fillGaps_eq : g.fillGaps = true
  /-- There are no repeat marks. -/
  markers_eq : g.markers = []
  /-- There is no upbeat. -/
  pickup_le : g.pickup ≤ 0

/-- The bars of a plain grid hold the parts of the laid events. -/
lemma Plain.cut_eq (h : g.Plain) {events : List (Event Rat)}
    (hevents : ∀ e ∈ events, 0 ≤ e.onset ∧ 0 < e.duration) :
    g.cut events =
      (g.bars (g.laid 0 (g.filled 0 events)) (g.opened 0 (g.filled 0 events))).map
        fun s => { s with mark := none } := by
  have hshift := shift?_eq_none h.tolerance_nonneg h.pickup_le
  rw [Grid.cut_eq h.toUsable hshift hevents, markPickup_of_fillGaps hshift h.fillGaps_eq, mark,
    h.markers_eq]
  rfl

/-- The bars of a voice that begins `k` bars later are `k` bars of rest and then the bars as they
were. -/
theorem Plain.cut_delay (h : g.Plain) (hk : 0 < k) {events : List (Event Rat)} (hne : events ≠ [])
    (hevents : ∀ e ∈ events, 0 ≤ e.onset ∧ 0 < e.duration) :
    g.cut (events.map (Event.delay (k * g.length))) =
      (List.range k).map g.restBar ++ (g.cut events).map (Slot.renumber k) := by
  have hlater : ∀ e ∈ events.map (Event.delay (k * g.length)), 0 ≤ e.onset ∧ 0 < e.duration := by
    refine List.forall_mem_map.mpr fun e he => ?_
    obtain ⟨honset, hduration⟩ := hevents e he
    have hlength := h.length_pos
    exact ⟨add_nonneg honset (by positivity), hduration⟩
  obtain ⟨e, rest, rfl⟩ := List.exists_cons_of_ne_nil hne
  obtain ⟨hdelayed, hopened⟩ := delayedBy_filled h.toUsable h.fillGaps_eq hk hevents
  rw [h.cut_eq hlater, h.cut_eq hevents, hopened, hdelayed.bars_eq, List.map_append, List.map_map,
    List.map_map, List.map_map]
  rfl

/-- A voice without events has no bars. -/
lemma Plain.cut_nil (h : g.Plain) : g.cut [] = [] := by
  rw [h.cut_eq (fun _ h => absurd h List.not_mem_nil)]
  rfl

/-- What begins in the first bar leaves a part of itself there. -/
lemma exists_piece_zero (h : g.Usable) {e : Event Rat} (honset : 0 ≤ e.onset)
    (hduration : 0 < e.duration) (hbar : g.barOf e.onset = 0) : ∃ f, g.piece 0 e = some f := by
  have hbegins := (barOf_le_iff h honset).mp hbar.le
  have htolerance := h.tolerance_nonneg
  have hlt : max e.onset ((0 : Nat) * g.length) < min e.stop (((0 : Nat) + 1) * g.length) := by
    rw [Nat.cast_zero, zero_mul, max_eq_left honset]
    refine lt_min (lt_add_of_pos_right _ hduration) ?_
    push_cast at hbegins
    linarith
  rw [piece, if_pos hlt]
  exact ⟨_, rfl⟩

/-- A voice with events has bars. -/
lemma Plain.cut_ne_nil (h : g.Plain) {events : List (Event Rat)} (hne : events ≠ [])
    (hevents : ∀ e ∈ events, 0 ≤ e.onset ∧ 0 < e.duration) : g.cut events ≠ [] := by
  obtain ⟨e, rest, rfl⟩ := List.exists_cons_of_ne_nil hne
  obtain ⟨⟨honset, hduration⟩, hrest⟩ := List.forall_mem_cons.mp hevents
  have hstop : 0 ≤ e.stop := add_nonneg honset hduration.le
  obtain ⟨hlaid, hopened⟩ := laid_filled_zero h.toUsable h.fillGaps_eq honset hstop rest
  rw [h.cut_eq hevents, hopened, Ne, List.map_eq_nil_iff, bars, List.append_eq_nil_iff]
  rintro ⟨hclosed, hlast⟩
  -- No bar is closed, so the first event stands in the first bar alone, which is open.
  have hzero : g.opened 0 (e :: g.filled e.stop rest) = 0 := by simpa using hclosed
  have hlaidFirst : g.lay 0 e ∈ g.laid 0 (e :: g.filled e.stop rest) := List.mem_cons_self
  have hlastBar : (g.lay 0 e).last = 0 :=
    Nat.le_zero.mp ((last_le_opened hlaidFirst).trans_eq hzero)
  have hfirstBar : (g.lay 0 e).first = 0 :=
    Nat.le_zero.mp ((le_max_left _ _).trans_eq hlastBar)
  have hbar : g.barOf e.onset = 0 := Nat.le_zero.mp ((le_max_right 0 _).trans_eq hfirstBar)
  obtain ⟨f, hpiece⟩ := exists_piece_zero h.toUsable honset hduration hbar
  have hpieceOf : g.pieceOf 0 (g.lay 0 e) = some f := by
    rw [pieceOf, if_pos ⟨hfirstBar.le, hlastBar.ge⟩]
    exact hpiece
  have hmem : g.lay 0 e ∈ g.laid 0 (g.filled 0 (e :: rest)) := by
    rw [hlaid]
    split
    · exact List.mem_cons_of_mem _ List.mem_cons_self
    · exact List.mem_cons_self
  rw [hzero, Scanner.lastBar] at hlast
  split at hlast
  · rename_i hnone
    rw [List.filterMap_eq_nil_iff.mp hnone _ hmem] at hpieceOf
    cases hpieceOf
  · cases hlast

end Grid

end PatternScore
