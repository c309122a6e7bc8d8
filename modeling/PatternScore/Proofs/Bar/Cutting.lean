import PatternScore.Proofs.Bar.Filling

/-!
# What the bars of a voice hold

Over the rationals the scanner can be described without its loops. An event is laid from the bar
that is open when its turn comes, but not before the bar in which it begins, up to the bar in which
it ends, and in each of these bars stands the part of it that lies there. `Laid` records an event
with its first and its last bar, `laid` lists a voice's events in this way, and `Scanner.Holds` says
that a scanner holds exactly the parts of some laid events. `Holds.place` is the step and
`Holds.foldl_place` the run.
-/

namespace PatternScore

/-! ## Bars and times -/

namespace Grid

variable (g : Grid Rat)

/-- A grid of bars that have a length, with a tolerance below it. -/
structure Usable : Prop where
  /-- Bars have a length. -/
  length_pos : 0 < g.length
  /-- The tolerance is not negative. -/
  tolerance_nonneg : 0 ≤ g.tolerance
  /-- The tolerance is shorter than a bar. -/
  tolerance_lt : g.tolerance < g.length

/-- The bar in which something begins; within the tolerance before a bar line it belongs behind. -/
def barOf (time : Rat) : Nat :=
  ⌊(time + g.tolerance) / g.length⌋₊

/-- The bar in which something ends; within the tolerance behind a bar line it belongs before. -/
def barBefore (time : Rat) : Nat :=
  ⌈(time - g.tolerance) / g.length⌉₊ - 1

variable {g}

/-- A time is not behind a bar if it is before the end of the bar, by more than the tolerance. -/
lemma barOf_le_iff (h : g.Usable) {time : Rat} (htime : 0 ≤ time) {bar : Nat} :
    g.barOf time ≤ bar ↔ time + g.tolerance < (bar + 1) * g.length := by
  have hnonneg : 0 ≤ (time + g.tolerance) / g.length :=
    div_nonneg (add_nonneg htime h.tolerance_nonneg) h.length_pos.le
  rw [barOf, ← Nat.lt_succ_iff, Nat.floor_lt hnonneg, div_lt_iff₀ h.length_pos]
  push_cast
  rfl

/-- A time is not before a bar if it is behind its start, less the tolerance. -/
lemma le_barOf_iff (h : g.Usable) {time : Rat} (htime : 0 ≤ time) {bar : Nat} :
    bar ≤ g.barOf time ↔ bar * g.length ≤ time + g.tolerance := by
  have hnonneg : 0 ≤ (time + g.tolerance) / g.length :=
    div_nonneg (add_nonneg htime h.tolerance_nonneg) h.length_pos.le
  rw [barOf, Nat.le_floor_iff hnonneg, le_div_iff₀ h.length_pos]

/-- What ends at a time does not go beyond a bar if it ends with the bar or sooner, the tolerance
included. -/
lemma barBefore_le_iff (h : g.Usable) {time : Rat} {bar : Nat} :
    g.barBefore time ≤ bar ↔ time ≤ (bar + 1) * g.length + g.tolerance := by
  rw [barBefore, Nat.sub_le_iff_le_add, Nat.ceil_le, div_le_iff₀ h.length_pos, sub_le_iff_le_add]
  push_cast
  rfl

/-- What has ended when something begins ends in the bar in which that begins, or before. -/
lemma barBefore_le_barOf (h : g.Usable) {stop onset : Rat} (hstop : 0 ≤ stop)
    (hle : stop ≤ onset) : g.barBefore stop ≤ g.barOf onset := by
  have htolerance := h.tolerance_nonneg
  have hbar := (barOf_le_iff h (hstop.trans hle)).mp le_rfl
  rw [barBefore_le_iff h]
  linarith

/-- A bar line begins the bar behind it. -/
lemma barOf_line (h : g.Usable) (bar : Nat) : g.barOf (bar * g.length) = bar := by
  have hlength := h.length_pos
  have htolerance := h.tolerance_nonneg
  have hlt := h.tolerance_lt
  have hline : (0 : Rat) ≤ bar * g.length := by positivity
  refine le_antisymm ?_ ?_
  · rw [barOf_le_iff h hline]
    linarith
  · rw [le_barOf_iff h hline]
    linarith

end Grid

/-! ## Laid events -/

/-- An event with the bars in which it stands. -/
structure Laid where
  /-- The event. -/
  event : Event Rat
  /-- The first bar in which it stands. -/
  first : Nat
  /-- The last bar in which it stands. -/
  last : Nat

namespace Grid

variable (g : Grid Rat)

/-- The part of an event that lies in a bar. -/
def piece (bar : Nat) (e : Event Rat) : Option (Fragment Rat) :=
  let start := max e.onset (bar * g.length)
  let stop := min e.stop ((bar + 1) * g.length)
  if start < stop then
    some { offset := start - bar * g.length, duration := stop - start, pitch := e.pitch,
           chord := e.chord }
  else none

/-- What a laid event leaves in a bar. -/
def pieceOf (bar : Nat) (l : Laid) : Option (Fragment Rat) :=
  if l.first ≤ bar ∧ bar ≤ l.last then g.piece bar l.event else none

/-- An event laid while the bar `opened` is open. -/
def lay (opened : Nat) (e : Event Rat) : Laid :=
  let first := max opened (g.barOf e.onset)
  ⟨e, first, max first (g.barBefore e.stop)⟩

/-- Events laid one after another. -/
def laid : Nat → List (Event Rat) → List Laid
  | _, [] => []
  | opened, e :: rest => g.lay opened e :: laid (g.lay opened e).last rest

/-- The bar that is open after some events. -/
def opened : Nat → List (Event Rat) → Nat
  | number, [] => number
  | number, e :: rest => opened (g.lay number e).last rest

/-- What stands in a bar in which some events are laid; a rest if nothing does. -/
def content (l : List Laid) (bar : Nat) : List (Fragment Rat) :=
  let pieces := l.filterMap (g.pieceOf bar)
  if pieces.isEmpty then [Scanner.wholeRest g] else pieces

/-- A bar in which some events are laid. -/
def slot (l : List Laid) (bar : Nat) : Slot Rat :=
  { index := bar, voice := g.voice, fragments := g.content l bar, unit := 0 }

variable {g}

/-- Laying events never opens a bar again. -/
lemma le_opened (number : Nat) (events : List (Event Rat)) : number ≤ g.opened number events := by
  induction events generalizing number with
  | nil => rfl
  | cons e rest ih =>
    refine le_trans ?_ (ih _)
    change number ≤ max (max number _) _
    omega

/-- Nothing is laid behind the bar that is open in the end. -/
lemma last_le_opened {number : Nat} {events : List (Event Rat)} {x : Laid}
    (hx : x ∈ g.laid number events) : x.last ≤ g.opened number events := by
  induction events generalizing number with
  | nil => cases hx
  | cons e rest ih =>
    rcases List.mem_cons.mp hx with rfl | hrest
    · exact le_opened _ rest
    · exact ih hrest

/-- The bar in which an event ends is open behind it. -/
lemma barBefore_le_opened {number : Nat} {events : List (Event Rat)} {e : Event Rat}
    (he : e ∈ events) : g.barBefore e.stop ≤ g.opened number events := by
  induction events generalizing number with
  | nil => cases he
  | cons f rest ih =>
    rcases List.mem_cons.mp he with rfl | hrest
    · have hlast : g.barBefore e.stop ≤ (g.lay number e).last := le_max_right _ _
      exact hlast.trans (le_opened _ rest)
    · exact ih hrest

/-- Events that begin and end up to a bar open none behind it. -/
lemma opened_le {number bar : Nat} (hnumber : number ≤ bar) {events : List (Event Rat)}
    (h : ∀ e ∈ events, g.barOf e.onset ≤ bar ∧ g.barBefore e.stop ≤ bar) :
    g.opened number events ≤ bar := by
  induction events generalizing number with
  | nil => exact hnumber
  | cons e rest ih =>
    obtain ⟨hbegin, hend⟩ := h e List.mem_cons_self
    have hlast : (g.lay number e).last ≤ bar := max_le (max_le hnumber hbegin) hend
    exact ih hlast fun f hf => h f (List.mem_cons_of_mem _ hf)

end Grid

/-! ## The scanner -/

namespace Scanner

variable {g : Grid Rat} {s : Scanner Rat} {l : List Laid}

/-- The scanner holds the parts of some laid events and nothing else. -/
structure Holds (g : Grid Rat) (l : List Laid) (s : Scanner Rat) : Prop where
  /-- The closed bars. -/
  closed_eq : s.closed.reverse = (List.range s.number).map (g.slot l)
  /-- The open bar. -/
  current_eq : s.current.reverse = l.filterMap (g.pieceOf s.number)
  /-- Nothing lies behind the open bar. -/
  last_le : ∀ x ∈ l, x.last ≤ s.number

/-- A new scanner holds nothing. -/
lemma holds_start : Holds g [] {} := ⟨rfl, rfl, fun _ h => absurd h List.not_mem_nil⟩

/-- Closing the open bar moves nothing. -/
lemma Holds.close (h : Holds g l s) : Holds g l (s.close g) := by
  refine ⟨?_, ?_, fun x hx => Nat.le_succ_of_le (h.last_le x hx)⟩
  · have hcontent : (if s.current.isEmpty then [wholeRest g] else s.current.reverse) =
        g.content l s.number := by
      rw [Grid.content, ← h.current_eq, List.isEmpty_reverse]
    have hnumber : (s.close g).number = s.number + 1 := rfl
    rw [hnumber, List.range_succ, List.map_append, ← h.closed_eq]
    simp only [Scanner.close, List.reverse_cons, hcontent]
    rfl
  · have hnil : l.filterMap (g.pieceOf (s.number + 1)) = [] := by
      rw [List.filterMap_eq_nil_iff]
      intro x hx
      have hlast := h.last_le x hx
      rw [Grid.pieceOf, if_neg]
      intro hbar
      have hbehind : s.number + 1 ≤ x.last := hbar.2
      omega
    exact hnil.symm

/-- Closing bars until one is open that lasts beyond a time. -/
lemma Holds.advance (hg : g.Usable) {time : Rat} (htime : 0 ≤ time) (h : Holds g l s) {bars : Nat}
    (hbars : g.barOf time ≤ s.number + bars) :
    Holds g l (s.advance g time bars) ∧
      (s.advance g time bars).number = max s.number (g.barOf time) := by
  induction bars generalizing s with
  | zero => exact ⟨h, (max_eq_left hbars).symm⟩
  | succ bars ih =>
    have hstep : s.advance g time (bars + 1) =
        if ((s.number + 1 : Nat) : Rat) * g.length - g.tolerance ≤ time then
          (s.close g).advance g time bars else s := rfl
    have hnumber : (s.close g).number = s.number + 1 := rfl
    rw [hstep]
    split
    · rename_i hle
      have hbehind : s.number + 1 ≤ g.barOf time := by
        rw [Grid.le_barOf_iff hg htime]
        linarith
      obtain ⟨hholds, heq⟩ := ih h.close (by omega)
      refine ⟨hholds, ?_⟩
      rw [heq, hnumber, max_eq_right hbehind, max_eq_right (by omega)]
    · rename_i hlt
      have hbefore : g.barOf time ≤ s.number := by
        rw [Grid.barOf_le_iff hg htime]
        push_cast at hlt
        linarith
      exact ⟨h, (max_eq_left hbefore).symm⟩

/-- The bound on the number of bars that close suffices. -/
lemma barsUpTo_eq (g : Grid Rat) (time : Rat) : barsUpTo g time = g.barOf time + 2 := rfl

/-- What lies in the open bar is placed there; other bars are not touched. -/
lemma Holds.put (hg : g.Usable) (h : Holds g l s) {l' : List Laid} {e : Event Rat} {start : Rat}
    (hstart : max start (s.number * g.length) = max e.onset (s.number * g.length))
    (hbefore : ∀ bar < s.number, l'.filterMap (g.pieceOf bar) = l.filterMap (g.pieceOf bar))
    (hopen : l'.filterMap (g.pieceOf s.number) =
      l.filterMap (g.pieceOf s.number) ++ (g.piece s.number e).toList)
    (hlast : ∀ x ∈ l', x.last ≤ s.number) :
    Holds g l' (s.put g start e.stop e.pitch e.chord) ∧
      (s.put g start e.stop e.pitch e.chord).number = s.number := by
  have hput : s.put g start e.stop e.pitch e.chord =
      { s with current := (g.piece s.number e).toList ++ s.current } := by
    have hs : s.start g = s.number * g.length := rfl
    simp only [Scanner.put, cut_eq hg.tolerance_nonneg, hs, Scalar.rat_max, hstart, Grid.piece]
    split <;> rfl
  rw [hput]
  refine ⟨⟨?_, ?_, hlast⟩, rfl⟩
  · have hslots : (List.range s.number).map (g.slot l') = (List.range s.number).map (g.slot l) := by
      refine List.map_congr_left fun bar hbar => ?_
      have hlt : bar < s.number := List.mem_range.mp hbar
      rw [Grid.slot, Grid.slot, Grid.content, Grid.content, hbefore bar hlt]
    exact h.closed_eq.trans hslots.symm
  · have hreverse : ((g.piece s.number e).toList ++ s.current).reverse =
        s.current.reverse ++ (g.piece s.number e).toList := by
      cases g.piece s.number e <;> simp
    exact hreverse.trans (by rw [h.current_eq, hopen])

/-- The first piece of an event goes to the open bar. -/
lemma Holds.putFirst (hg : g.Usable) (h : Holds g l s) (e : Event Rat) :
    Holds g (l ++ [⟨e, s.number, s.number⟩]) (s.put g e.onset e.stop e.pitch e.chord) ∧
      (s.put g e.onset e.stop e.pitch e.chord).number = s.number := by
  refine h.put hg rfl ?_ ?_ ?_
  · intro bar hbar
    have hnone : g.pieceOf bar ⟨e, s.number, s.number⟩ = none := if_neg (by simp; omega)
    simp [hnone]
  · have hpiece : g.pieceOf s.number ⟨e, s.number, s.number⟩ = g.piece s.number e :=
      if_pos ⟨le_rfl, le_rfl⟩
    rw [List.filterMap_append]
    cases hcase : g.piece s.number e <;> simp [hpiece, hcase]
  · intro x hx
    rcases List.mem_append.mp hx with hold | hnew
    · exact h.last_le x hold
    · rw [List.mem_singleton.mp hnew]

/-- A further piece goes to the next bar. -/
lemma Holds.putNext (hg : g.Usable) {e : Event Rat} {first last : Nat} (hfirst : first ≤ last)
    (h : Holds g (l ++ [⟨e, first, last⟩]) s) (hnumber : s.number = last + 1)
    (honset : e.onset ≤ (last + 1) * g.length) :
    Holds g (l ++ [⟨e, first, last + 1⟩])
        (s.put g ((last + 1) * g.length) e.stop e.pitch e.chord) ∧
      (s.put g ((last + 1) * g.length) e.stop e.pitch e.chord).number = last + 1 := by
  have hbar : (s.number : Rat) = last + 1 := by
    rw [hnumber]
    push_cast
    rfl
  rw [← hnumber]
  refine h.put hg ?_ ?_ ?_ ?_
  · rw [hbar, max_self, max_eq_right honset]
  · intro bar hlt
    have hsame : g.pieceOf bar ⟨e, first, s.number⟩ = g.pieceOf bar ⟨e, first, last⟩ := by
      rw [Grid.pieceOf, Grid.pieceOf]
      refine if_congr (and_congr_right fun _ => ?_) rfl rfl
      change bar ≤ s.number ↔ bar ≤ last
      omega
    have hsingle : [Laid.mk e first s.number].filterMap (g.pieceOf bar) =
        [Laid.mk e first last].filterMap (g.pieceOf bar) := by
      rw [List.filterMap_cons, List.filterMap_cons, hsame]
    rw [List.filterMap_append, List.filterMap_append, hsingle]
  · have hpiece : g.pieceOf s.number ⟨e, first, s.number⟩ = g.piece s.number e :=
      if_pos ⟨show first ≤ s.number by omega, le_rfl⟩
    have hnone : g.pieceOf s.number ⟨e, first, last⟩ = none :=
      if_neg (by simp only [not_and]; omega)
    rw [List.filterMap_append, List.filterMap_append]
    cases hcase : g.piece s.number e <;> simp [hpiece, hnone, hcase]
  · intro x hx
    rcases List.mem_append.mp hx with hold | hnew
    · exact h.last_le x (List.mem_append_left _ hold)
    · rw [List.mem_singleton.mp hnew]

/-- One step of placing a piece. It was the last one if the piece ends in the bar that is open. -/
lemma placeFrom_succ (hg : g.Usable) {pitch : Option Int} {chord : Option ChordMark}
    {start stop : Rat} (h : start < stop) (bars : Nat) (s : Scanner Rat) :
    let opened := s.advance g start (barsUpTo g start)
    placeFrom g stop pitch chord (bars + 1) start s =
      if g.barBefore stop ≤ opened.number then opened.put g start stop pitch chord
      else placeFrom g stop pitch chord bars ((opened.number + 1) * g.length)
        (opened.put g start stop pitch chord) := by
  intro opened
  have hpositive : Scalar.zero < stop - start := by
    change (0 : Rat) < _
    linarith
  have hopened : opened.stop g = (opened.number + 1) * g.length := stop_eq g opened
  have htolerance := hg.tolerance_nonneg
  have hdone : (stop ≤ opened.cut g stop ∨ stop ≤ opened.stop g + g.tolerance) ↔
      g.barBefore stop ≤ opened.number := by
    rw [cut_eq htolerance, hopened, Grid.barBefore_le_iff hg]
    constructor
    · rintro (hle | hle)
      · have := hle.trans (min_le_right _ _)
        linarith
      · exact hle
    · exact Or.inr
  rw [placeFrom, if_pos hpositive, ← hopened]
  exact if_congr hdone rfl rfl

/-- The rest of an event is placed bar by bar up to the one in which it ends. -/
lemma Holds.placeRest (hg : g.Usable) {e : Event Rat} (bars : Nat) {first last : Nat}
    (hfirst : first ≤ last) (h : Holds g (l ++ [⟨e, first, last⟩]) s) (hnumber : s.number = last)
    (honset : e.onset ≤ (last + 1) * g.length) (hstop : last < g.barBefore e.stop)
    (hbars : g.barBefore e.stop ≤ last + bars) :
    let placed := placeFrom g e.stop e.pitch e.chord bars ((last + 1) * g.length) s
    Holds g (l ++ [⟨e, first, g.barBefore e.stop⟩]) placed ∧
      placed.number = g.barBefore e.stop := by
  induction bars generalizing last s with
  | zero => omega
  | succ bars ih =>
    intro placed
    have hlength := hg.length_pos
    have hline : ((last : Rat) + 1) * g.length = ((last + 1 : Nat) : Rat) * g.length := by
      push_cast
      rfl
    have hline_nonneg : (0 : Rat) ≤ (last + 1) * g.length := by positivity
    have hbehind : (last + 1) * g.length < e.stop := by
      have htolerance := hg.tolerance_nonneg
      have hlt := (Grid.barBefore_le_iff hg).not.mp (not_le.mpr hstop)
      linarith
    have hbarOf : g.barOf ((last + 1) * g.length) = last + 1 := by
      rw [hline, Grid.barOf_line hg]
    have henough : g.barOf ((last + 1) * g.length) ≤
        s.number + barsUpTo g ((last + 1) * g.length) := by
      rw [barsUpTo_eq]
      omega
    obtain ⟨hadvanced, hopen⟩ := h.advance hg hline_nonneg henough
    rw [hbarOf, hnumber, max_eq_right (Nat.le_succ last)] at hopen
    obtain ⟨hput, hputNumber⟩ := hadvanced.putNext hg hfirst hopen honset
    have hstep : placed = _ := placeFrom_succ hg hbehind bars s
    rw [hstep, hopen]
    split
    · rename_i hle
      have hlast : g.barBefore e.stop = last + 1 := by omega
      rw [hlast]
      exact ⟨hput, hputNumber⟩
    · refine ih (by omega) hput hputNumber ?_ (by omega) (by omega)
      push_cast
      linarith

/-- Placing an event lays it. -/
lemma Holds.place (hg : g.Usable) (h : Holds g l s) {e : Event Rat} (honset : 0 ≤ e.onset)
    (hduration : 0 < e.duration) :
    let placed := s.place g e.onset e.duration e.pitch e.chord
    Holds g (l ++ [g.lay s.number e]) placed ∧ placed.number = (g.lay s.number e).last := by
  intro placed
  have hbehind : e.onset < e.stop := by
    change e.onset < e.onset + e.duration
    linarith
  have henough : g.barOf e.onset ≤ s.number + barsUpTo g e.onset := by
    rw [barsUpTo_eq]
    omega
  obtain ⟨hadvanced, hopen⟩ := h.advance hg honset henough
  obtain ⟨hput, hputNumber⟩ := hadvanced.putFirst hg e
  have hstep : placed = _ := placeFrom_succ hg hbehind (g.barOf e.stop + 1) s
  rw [hopen] at hput hputNumber hstep
  have hlay : g.lay s.number e = ⟨e, max s.number (g.barOf e.onset),
      max (max s.number (g.barOf e.onset)) (g.barBefore e.stop)⟩ := rfl
  rw [hstep, hlay]
  split
  · rename_i hle
    rw [max_eq_left hle]
    exact ⟨hput, hputNumber⟩
  · rename_i hlt
    have hfuel := Grid.barBefore_le_barOf hg (honset.trans hbehind.le) le_rfl
    have hbegins := (Grid.barOf_le_iff hg honset).mp (le_max_right s.number (g.barOf e.onset))
    have htolerance := hg.tolerance_nonneg
    have hgreater : max s.number (g.barOf e.onset) < g.barBefore e.stop := by omega
    have hfuel' : g.barBefore e.stop ≤
        max s.number (g.barOf e.onset) + (g.barOf e.stop + 1) := by omega
    rw [max_eq_right hgreater.le]
    exact hput.placeRest hg _ le_rfl hputNumber (by linarith) hgreater hfuel'

/-- Placing events one after another lays them. -/
lemma Holds.foldl_place (hg : g.Usable) (h : Holds g l s) {events : List (Event Rat)}
    (hevents : ∀ e ∈ events, 0 ≤ e.onset ∧ 0 < e.duration) :
    let placed := events.foldl (fun s e => s.place g e.onset e.duration e.pitch e.chord) s
    Holds g (l ++ g.laid s.number events) placed ∧ placed.number = g.opened s.number events := by
  induction events generalizing l s with
  | nil => simpa [Grid.laid, Grid.opened] using h
  | cons e rest ih =>
    obtain ⟨honset, hduration⟩ := hevents e List.mem_cons_self
    obtain ⟨hplaced, hnumber⟩ := h.place hg honset hduration
    have hrest := ih hplaced fun f hf => hevents f (List.mem_cons_of_mem _ hf)
    rw [List.append_assoc, hnumber] at hrest
    exact hrest

/-! ## The end of a voice -/

/-- The greatest end of some fragments is that of one of them and not less than any. -/
lemma covered_eq {first : Fragment Rat} {rest : List (Fragment Rat)} {time : Rat}
    (hle : ∀ f ∈ first :: rest, f.stop ≤ time) (hmem : ∃ f ∈ first :: rest, f.stop = time) :
    covered first rest = time := by
  have hfold (rest : List (Fragment Rat)) (start : Rat) (hle : ∀ f ∈ rest, f.stop ≤ time)
      (hstart : start ≤ time) (hmem : start = time ∨ ∃ f ∈ rest, f.stop = time) :
      rest.foldl (fun time f => Scalar.max time f.stop) start = time := by
    induction rest generalizing start with
    | nil => simpa using hmem
    | cons f rest ih =>
      obtain ⟨hf, hrest⟩ := List.forall_mem_cons.mp hle
      rw [List.foldl_cons, Scalar.rat_max]
      refine ih (max start f.stop) hrest (max_le hstart hf) ?_
      rcases hmem with rfl | ⟨f', hf', heq⟩
      · exact .inl (max_eq_left hf)
      · rcases List.mem_cons.mp hf' with rfl | hf'
        · exact .inl (heq ▸ max_eq_right (heq ▸ hstart))
        · exact .inr ⟨f', hf', heq⟩
  obtain ⟨hfirst, hrest⟩ := List.forall_mem_cons.mp hle
  refine hfold rest first.stop hrest hfirst ?_
  obtain ⟨f, hf, heq⟩ := hmem
  rcases List.mem_cons.mp hf with rfl | hf
  · exact .inl heq
  · exact .inr ⟨f, hf, heq⟩

/-- The rest that fills a bar up to its end. -/
def filling (g : Grid Rat) (time : Rat) : List (Fragment Rat) :=
  if g.tolerance < g.length - time then [{ offset := time, duration := g.length - time }] else []

/-- The last bar, filled up, if there is anything in it. -/
def lastBar (g : Grid Rat) (l : List Laid) (bar : Nat) : List (Slot Rat) :=
  match l.filterMap (g.pieceOf bar) with
  | [] => []
  | first :: rest =>
    [{ index := bar, voice := g.voice, unit := 0
       fragments := first :: rest ++ filling g (covered first rest) }]

/-- All bars. -/
lemma Holds.finish (h : Holds g l s) :
    s.finish g = (List.range s.number).map (g.slot l) ++ lastBar g l s.number := by
  rw [Scanner.finish, lastBar, ← h.current_eq]
  cases hcurrent : s.current.reverse with
  | nil => simp [h.closed_eq]
  | cons first rest =>
    have hfilled : s.current = (first :: rest).reverse := by
      rw [← hcurrent, List.reverse_reverse]
    simp only [Scanner.close, filling]
    split
    · simp [h.closed_eq, hfilled, Scalar.rat_zero]
    · simp [h.closed_eq, hfilled, Scalar.rat_zero]

end Scanner

/-! ## Silence between events -/

namespace Grid

variable {g : Grid Rat}

/-- Silence from one time to another. -/
def silence (start stop : Rat) : Event Rat :=
  { onset := start, duration := stop - start }

/-- Silence begins at the first of its two times. -/
lemma onset_silence (start stop : Rat) : (silence start stop).onset = start := rfl

/-- Silence ends at the second of them. -/
lemma stop_silence (start stop : Rat) : (silence start stop).stop = stop := add_sub_cancel _ _

/-- Events with the silence between them as rests, if silence is to be filled. Up to the time
`expected` something is there. -/
def filled (g : Grid Rat) : Rat → List (Event Rat) → List (Event Rat)
  | _, [] => []
  | expected, e :: rest =>
    if g.fillGaps && decide (expected + g.tolerance < e.onset) then
      silence expected e.onset :: e :: filled g (max expected e.stop) rest
    else e :: filled g (max expected e.stop) rest

/-- To place events with the silence between them is to place the events of the filled line. -/
lemma fst_foldl_placeEvent (events : List (Event Rat)) (s : Scanner Rat) (expected : Rat) :
    (events.foldl (g.placeEvent 0) (s, expected)).1 =
      (g.filled expected events).foldl
        (fun s e => s.place g e.onset e.duration e.pitch e.chord) s := by
  induction events generalizing s expected with
  | nil => rfl
  | cons e rest ih =>
    have honset : e.onset + 0 = e.onset := add_zero _
    have hexpected : Scalar.max expected (e.onset + e.duration) = max expected e.stop :=
      Scalar.rat_max _ _
    rw [List.foldl_cons, filled, Grid.placeEvent]
    simp only [honset, hexpected, ih]
    split
    · rfl
    · rfl

/-- Where silence is not filled, nothing is added. -/
lemma filled_eq (hwritten : g.fillGaps = false) (expected : Rat) (events : List (Event Rat)) :
    g.filled expected events = events := by
  induction events generalizing expected with
  | nil => rfl
  | cons e rest ih =>
    rw [filled, hwritten, ih]
    rfl

/-- Every event stays. -/
lemma mem_filled {e : Event Rat} {events : List (Event Rat)} (h : e ∈ events) (expected : Rat) :
    e ∈ g.filled expected events := by
  induction events generalizing expected with
  | nil => cases h
  | cons f rest ih =>
    unfold filled
    split
    · refine List.mem_cons_of_mem _ ?_
      rcases List.mem_cons.mp h with rfl | h
      · exact List.mem_cons_self
      · exact List.mem_cons_of_mem _ (ih h _)
    · rcases List.mem_cons.mp h with rfl | h
      · exact List.mem_cons_self
      · exact List.mem_cons_of_mem _ (ih h _)

/-- Only rests are added. -/
lemma mem_of_mem_filled {e : Event Rat} {events : List (Event Rat)} {expected : Rat}
    (h : e ∈ g.filled expected events) (hnote : e.pitch.isSome) : e ∈ events := by
  induction events generalizing expected with
  | nil => cases h
  | cons f rest ih =>
    unfold filled at h
    split at h
    · rcases List.mem_cons.mp h with rfl | h
      · cases hnote
      · rcases List.mem_cons.mp h with rfl | h
        · exact List.mem_cons_self
        · exact List.mem_cons_of_mem _ (ih h)
    · rcases List.mem_cons.mp h with rfl | h
      · exact List.mem_cons_self
      · exact List.mem_cons_of_mem _ (ih h)

/-- Filled events begin in time and last. -/
lemma filled_lasts (htolerance : 0 ≤ g.tolerance) {events : List (Event Rat)} {expected : Rat}
    (hexpected : 0 ≤ expected) (h : ∀ e ∈ events, 0 ≤ e.onset ∧ 0 < e.duration) :
    ∀ e ∈ g.filled expected events, 0 ≤ e.onset ∧ 0 < e.duration := by
  induction events generalizing expected with
  | nil => exact fun _ h => absurd h List.not_mem_nil
  | cons e rest ih =>
    have he := h e List.mem_cons_self
    have hlater : 0 ≤ max expected e.stop := hexpected.trans (le_max_left _ _)
    have hrest := ih hlater fun f hf => h f (List.mem_cons_of_mem _ hf)
    unfold filled
    split
    · rename_i hgap
      have hlt : expected + g.tolerance < e.onset := by simpa using (Bool.and_elim_right hgap)
      refine List.forall_mem_cons.mpr ⟨⟨hexpected, ?_⟩, List.forall_mem_cons.mpr ⟨he, hrest⟩⟩
      change 0 < e.onset - expected
      linarith
    · exact List.forall_mem_cons.mpr ⟨he, hrest⟩

/-! ## All bars -/

/-- The bars of a voice that nothing moves: every closed bar and the last one, if there is anything
in it. -/
def bars (g : Grid Rat) (l : List Laid) (number : Nat) : List (Slot Rat) :=
  (List.range number).map (g.slot l) ++ Scanner.lastBar g l number

/-- Without an upbeat the bars hold the parts of the laid events. -/
theorem cut_eq (hg : g.Usable) (hshift : g.shift? = none) {events : List (Event Rat)}
    (h : ∀ e ∈ events, 0 ≤ e.onset ∧ 0 < e.duration) :
    g.cut events = g.mark (g.markPickup
      (g.bars (g.laid 0 (g.filled 0 events)) (g.opened 0 (g.filled 0 events)))) := by
  have hscanned : g.cut events = g.mark (g.markPickup
      (Scanner.finish g (events.foldl (g.placeEvent 0) ({}, 0)).1)) := by
    rw [Grid.cut, hshift]
    rfl
  obtain ⟨hplaced, hnumber⟩ :=
    Scanner.holds_start.foldl_place hg (filled_lasts hg.tolerance_nonneg le_rfl h)
  rw [hscanned, fst_foldl_placeEvent, hplaced.finish, hnumber]
  rfl

end Grid

end PatternScore
