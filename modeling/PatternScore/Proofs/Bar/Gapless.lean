import PatternScore.Proofs.Bar.Cutting
import PatternScore.Proofs.Bar.Scanning
import PatternScore.Proofs.Tiling

/-!
# Filled bars have no holes

Where silence is filled, the events of one line and the rests between them leave at most the
tolerance between one another. The bars can lose as much again: what ends shortly behind a bar line
is cut there, and what begins shortly before one is moved behind it. So a bar may have holes, but
none is longer than two tolerances.

`TilesWithin` says of some things that each begins where the one before ends, or later by a slack at
most. `Scanner.FilledTo` is what the scanner knows when everything up to a time is placed: how far
the open bar is covered, that this is not beyond the time, and behind it by the tolerance at most.
Closing a bar (`FilledTo.close`) and putting a piece into it (`FilledTo.put`) keep it, so the rounds
of the loops do (`Places.filledTo`, `Scans.filledTo`).
-/

namespace PatternScore

/-! ## Things that nearly follow each other -/

section TilesWithin

variable {α : Type} {slack : Rat} {start stop : α → Rat} {a b : Rat} {l : List α} {x : α}

/-- The things follow each other from `a` on without overlap, each of them lasts and begins at most
`slack` behind the end of the one before, and the last one ends at `b`. -/
def TilesWithin (slack : Rat) (start stop : α → Rat) : Rat → List α → Rat → Prop
  | a, [], b => a = b
  | a, x :: rest, b =>
    a ≤ start x ∧ start x ≤ a + slack ∧ start x < stop x ∧
      TilesWithin slack start stop (stop x) rest b

namespace TilesWithin

/-- One more thing follows if it lasts and begins soon behind the end of the last one. -/
lemma concat (h : TilesWithin slack start stop a l b) (hle : b ≤ start x)
    (hnear : start x ≤ b + slack) (hlasts : start x < stop x) :
    TilesWithin slack start stop a (l ++ [x]) (stop x) := by
  induction l generalizing a with
  | nil =>
    obtain rfl : a = b := h
    exact ⟨hle, hnear, hlasts, rfl⟩
  | cons y rest ih =>
    obtain ⟨hbegin, hclose, hlong, hrest⟩ := h
    exact ⟨hbegin, hclose, hlong, ih hrest⟩

/-- The end is not before the start. -/
lemma le (h : TilesWithin slack start stop a l b) : a ≤ b := by
  induction l generalizing a with
  | nil => exact h.le
  | cons y rest ih =>
    obtain ⟨hbegin, -, hlong, hrest⟩ := h
    exact (hbegin.trans hlong.le).trans (ih hrest)

/-- Unless there is nothing, the end is behind the start. -/
lemma lt (h : TilesWithin slack start stop a l b) (hne : l ≠ []) : a < b := by
  cases l with
  | nil => exact absurd rfl hne
  | cons y rest =>
    obtain ⟨hbegin, -, hlong, hrest⟩ := h
    exact (hbegin.trans_lt hlong).trans_le (TilesWithin.le hrest)

/-- Each of them lies in between. -/
lemma mem (h : TilesWithin slack start stop a l b) (hx : x ∈ l) : a ≤ start x ∧ stop x ≤ b := by
  induction l generalizing a with
  | nil => cases hx
  | cons y rest ih =>
    obtain ⟨hbegin, -, hlong, hrest⟩ := h
    rcases List.mem_cons.mp hx with rfl | hx
    · exact ⟨hbegin, TilesWithin.le hrest⟩
    · obtain ⟨hle, hstop⟩ := ih hrest hx
      exact ⟨(hbegin.trans hlong.le).trans hle, hstop⟩

/-- None of them overlaps a later one. -/
lemma pairwise (h : TilesWithin slack start stop a l b) :
    l.Pairwise fun x y => stop x ≤ start y := by
  induction l generalizing a with
  | nil => exact List.Pairwise.nil
  | cons y rest ih =>
    obtain ⟨-, -, -, hrest⟩ := h
    exact List.pairwise_cons.mpr ⟨fun z hz => (mem hrest hz).1, ih hrest⟩

/-- One of them ends at the end. -/
lemma exists_stop_eq (h : TilesWithin slack start stop a l b) (hne : l ≠ []) :
    ∃ x ∈ l, stop x = b := by
  induction l generalizing a with
  | nil => exact absurd rfl hne
  | cons y rest ih =>
    obtain ⟨-, -, -, hrest⟩ := h
    cases rest with
    | nil => exact ⟨y, List.mem_cons_self, hrest⟩
    | cons z rest =>
      obtain ⟨x, hx, heq⟩ := ih hrest (List.cons_ne_nil _ _)
      exact ⟨x, List.mem_cons_of_mem _ hx, heq⟩

/-- Time that none of them enters is no longer than the slack. -/
lemma hole_le (h : TilesWithin slack start stop a l b) {from' upTo : Rat} (hfrom : a ≤ from')
    (hupTo : upTo ≤ b + slack) (hhole : ∀ x ∈ l, stop x ≤ from' ∨ upTo ≤ start x) :
    upTo ≤ from' + slack := by
  induction l generalizing a with
  | nil =>
    obtain rfl : a = b := h
    linarith
  | cons y rest ih =>
    obtain ⟨-, hclose, -, hrest⟩ := h
    obtain ⟨hy, hhole⟩ := List.forall_mem_cons.mp hhole
    rcases hy with hbefore | hbehind
    · exact ih hrest hbefore hhole
    · linarith

/-- Without slack there are no gaps. -/
lemma tiles (h : TilesWithin 0 start stop a l b) : Tiles start stop a l b := by
  induction l generalizing a with
  | nil => exact h
  | cons y rest ih =>
    obtain ⟨hbegin, hclose, hlong, hrest⟩ := h
    exact ⟨le_antisymm (by linarith) hbegin, hlong, ih hrest⟩

end TilesWithin

end TilesWithin

/-! ## Bars -/

namespace Slot

/-- The fragments of a bar, in their order, cover it with a slack. -/
def Gapless (slack length : Rat) (s : Slot Rat) : Prop :=
  ∃ covered, TilesWithin slack Fragment.offset Fragment.stop 0 s.fragments covered ∧
    covered ≤ length ∧ length ≤ covered + slack

/-- Between two instants of a bar there is no fragment. -/
structure IsHole (length : Rat) (s : Slot Rat) (a b : Rat) : Prop where
  /-- It begins in the bar. -/
  nonneg : 0 ≤ a
  /-- It ends in the bar. -/
  le_length : b ≤ length
  /-- No fragment reaches into it. -/
  free : ∀ f ∈ s.fragments, f.stop ≤ a ∨ b ≤ f.offset

variable {slack length : Rat} {s : Slot Rat}

/-- A hole of the bar is no longer than the slack. -/
lemma Gapless.hole_le (h : s.Gapless slack length) {a b : Rat} (hhole : s.IsHole length a b) :
    b - a ≤ slack := by
  obtain ⟨covered, htiles, -, hlength⟩ := h
  have hle := htiles.hole_le hhole.nonneg (hhole.le_length.trans hlength) hhole.free
  linarith

/-- Without slack the fragments tile the bar. -/
lemma Gapless.tiles (h : s.Gapless 0 length) :
    Tiles Fragment.offset Fragment.stop 0 s.fragments length := by
  obtain ⟨covered, htiles, hle, hlength⟩ := h
  obtain rfl : covered = length := le_antisymm hle (by linarith)
  exact htiles.tiles

/-- A bar with a rest of its whole length has no hole. -/
lemma gapless_wholeRest {g : Grid Rat} (hlength : 0 < g.length) (hslack : 0 ≤ slack)
    (hfragments : s.fragments = [Scanner.wholeRest g]) : s.Gapless slack g.length := by
  refine ⟨g.length, ?_, le_rfl, by linarith⟩
  rw [hfragments]
  have hstop : (Scanner.wholeRest g).stop = g.length := zero_add _
  refine ⟨le_rfl, ?_, ?_, hstop⟩
  · exact (zero_add slack).symm ▸ hslack
  · rw [hstop]
    exact hlength

end Slot

/-! ## Rounds -/

namespace Scanner

variable {g : Grid Rat} {s s' : Scanner Rat} {time covered start stop : Rat} {pitch : Option Int}
  {chord : Option ChordMark}

/-- A bar closes without long holes when what is in it covers it. -/
lemma gapless_close {current : List (Fragment Rat)} (hne : current ≠ [])
    (hclosed : ∀ c ∈ s.closed, c.Gapless (2 * g.tolerance) g.length)
    (hcurrent : TilesWithin (2 * g.tolerance) Fragment.offset Fragment.stop 0 current.reverse
      covered)
    (hle : covered ≤ g.length) (hlength : g.length ≤ covered + 2 * g.tolerance) :
    ∀ c ∈ (({ s with current } : Scanner Rat).close g).closed,
      c.Gapless (2 * g.tolerance) g.length := by
  refine List.forall_mem_cons.mpr ⟨⟨covered, ?_, hle, hlength⟩, hclosed⟩
  rw [if_neg fun hempty => hne (List.isEmpty_iff.mp hempty)]
  exact hcurrent

/-- Everything up to a time is placed, and the open bar is covered up to `covered`. -/
structure FilledTo (g : Grid Rat) (time covered : Rat) (s : Scanner Rat) : Prop where
  /-- The closed bars have no long holes. -/
  closed : ∀ c ∈ s.closed, c.Gapless (2 * g.tolerance) g.length
  /-- The open bar has none up to where it is covered. -/
  current : TilesWithin (2 * g.tolerance) Fragment.offset Fragment.stop 0 s.current.reverse covered
  /-- No more is covered than a bar. -/
  covered_le : covered ≤ g.length
  /-- No more is covered than is placed. -/
  covered_le_time : s.number * g.length + covered ≤ max time (s.number * g.length)
  /-- Of what is placed at most the tolerance is not covered. -/
  time_le : time ≤ s.number * g.length + covered + g.tolerance
  /-- In a bar that holds something, all that is placed is covered up to its end. -/
  min_le : s.current ≠ [] →
    min time ((s.number + 1) * g.length) ≤ s.number * g.length + covered

namespace FilledTo

/-- A bar closes for something that begins soon behind what is placed, so it is filled up to its
end, the tolerance aside. -/
lemma close (hlength : 0 < g.length) (htolerance : 0 ≤ g.tolerance)
    (h : FilledTo g time covered s) (hnear : start ≤ time + g.tolerance)
    (hends : s.stop g - g.tolerance ≤ start) : FilledTo g time 0 (s.close g) := by
  have hnumber : ((s.close g).number : Rat) = s.number + 1 := Nat.cast_succ _
  rw [stop_eq] at hends
  refine ⟨?_, rfl, hlength.le, ?_, ?_, fun hne => absurd rfl hne⟩
  · by_cases hempty : s.current = []
    · refine List.forall_mem_cons.mpr ⟨?_, h.closed⟩
      exact Slot.gapless_wholeRest hlength (by linarith) (if_pos (List.isEmpty_iff.mpr hempty))
    · refine gapless_close hempty h.closed h.current h.covered_le ?_
      rcases min_le_iff.mp (h.min_le hempty) with htime | hline
      · linarith
      · linarith
  · rw [add_zero]
    exact le_max_right _ _
  · have htime := h.time_le
    have hcovered := h.covered_le
    rw [hnumber]
    linarith

/-- A fragment is put behind what is covered, and then all that is placed is covered up to the
end of the bar. -/
lemma cons (h : FilledTo g time covered s) {f : Fragment Rat} (hle : covered ≤ f.offset)
    (hnear : f.offset ≤ covered + 2 * g.tolerance) (hlasts : f.offset < f.stop) {later : Rat}
    (hcut : s.number * g.length + f.stop = min later ((s.number + 1) * g.length))
    (hslack : later ≤ s.number * g.length + f.stop + g.tolerance) :
    FilledTo g later f.stop { s with current := f :: s.current } := by
  refine ⟨h.closed, ?_, ?_, ?_, hslack, fun _ => hcut.ge⟩
  · rw [List.reverse_cons]
    exact h.current.concat hle hnear hlasts
  · have hline := min_le_right later ((s.number + 1) * g.length)
    rw [← hcut] at hline
    linarith
  · rw [hcut]
    exact (min_le_left _ _).trans (le_max_left _ _)

/-- A piece is put behind what is covered, and up to its end or that of the bar all is covered. -/
lemma put (htolerance : 0 ≤ g.tolerance) (h : FilledTo g time covered s)
    (hle : time ≤ start) (hnear : start ≤ time + g.tolerance) (hlt : start < stop)
    (hopen : start < s.stop g) {later : Rat} (hlater : min later (s.stop g) = min stop (s.stop g))
    (hslack : later ≤ min stop (s.stop g) + g.tolerance) :
    ∃ covered', FilledTo g later covered' (s.put g start stop pitch chord) := by
  have hline : s.start g = s.number * g.length := rfl
  have hcovered := h.covered_le_time
  have htime := h.time_le
  have hnonneg := h.current.le
  rw [← hline] at hcovered htime
  rcases put_cases htolerance s start stop pitch chord with
    ⟨f, hoffset, hstop, hlasts, hput⟩ | ⟨hends, hput⟩
  · rw [hput]
    have hmax : max time (s.start g) ≤ max start (s.start g) := max_le_max hle le_rfl
    have hmax' : max start (s.start g) ≤ s.start g + covered + 2 * g.tolerance :=
      max_le (by linarith) (by linarith)
    refine ⟨f.stop, h.cons (by linarith) (by linarith) hlasts ?_ ?_⟩
    · rw [← stop_eq, ← hline, hlater, hstop]
      ring
    · rw [← hline]
      linarith
  · -- The piece ends where the bar begins or before: then the bar is still empty.
    rw [hput]
    have hbefore : start < min stop (s.stop g) := lt_min hlt hopen
    have hbegin : min stop (s.stop g) ≤ s.start g := by
      rcases le_max_iff.mp hends with hstart | hbegin
      · exact absurd hstart (not_le.mpr hbefore)
      · exact hbegin
    have hnil : s.current = [] := by
      by_contra hne
      have hpos := h.current.lt fun hnil => hne (List.reverse_eq_nil_iff.mp hnil)
      have hmax : max time (s.start g) ≤ s.start g := max_le (by linarith) le_rfl
      linarith
    refine ⟨0, h.closed, ?_, ?_, ?_, ?_, fun hne => absurd hnil hne⟩
    · rw [hnil]
      rfl
    · exact hnonneg.trans h.covered_le
    · rw [add_zero]
      exact le_max_right _ _
    · rw [← hline]
      linarith

end FilledTo

/-- Closing bars for what begins soon behind what is placed. -/
lemma Opens.filledTo (hlength : 0 < g.length) (htolerance : 0 ≤ g.tolerance)
    (h : Opens g start s s') (hnear : start ≤ time + g.tolerance) (hs : FilledTo g time covered s) :
    ∃ covered', FilledTo g time covered' s' := by
  induction h generalizing covered with
  | done => exact ⟨covered, hs⟩
  | close hends _ ih => exact ih (hs.close hlength htolerance hnear hends)

/-- Placing what begins soon behind what is placed: then everything up to its end is placed. -/
lemma Places.filledTo (hlength : 0 < g.length) (htolerance : 0 ≤ g.tolerance)
    (h : Places g stop pitch chord start s s') (hle : time ≤ start)
    (hnear : start ≤ time + g.tolerance) (hlt : start < stop) (hs : FilledTo g time covered s) :
    ∃ covered', FilledTo g stop covered' s' := by
  induction h generalizing time covered with
  | nothing hnot => exact absurd (sub_pos.mpr hlt) hnot
  | @last start s opened _ hopens hfits =>
    obtain ⟨covered', hopened⟩ := hopens.filledTo hlength htolerance hnear hs
    have hopen := hopens.lt_stop
    refine hopened.put htolerance hle hnear hlt (by linarith) rfl ?_
    rw [Fits, cut_eq htolerance, ← stop_eq] at hfits
    rw [← min_add_add_right]
    refine le_min (by linarith) ?_
    rcases hfits with hcut | hstop
    · exact (hcut.trans (min_le_right _ _)).trans (by linarith)
    · exact hstop
  | @next start s opened _ _ hopens hgoes _ ih =>
    obtain ⟨covered', hopened⟩ := hopens.filledTo hlength htolerance hnear hs
    have hopen := hopens.lt_stop
    have hbehind := lt_of_not_fits hgoes
    have hmin : min stop (opened.stop g) = opened.stop g := min_eq_right (by linarith)
    obtain ⟨_, hput⟩ : ∃ covered', FilledTo g (opened.stop g) covered'
        (opened.put g start stop pitch chord) := by
      refine hopened.put htolerance hle hnear hlt (by linarith) ?_ ?_
      · rw [hmin, min_self]
      · rw [hmin]
        linarith
    exact ih le_rfl (by linarith) (by linarith) hput

/-- When the open bar is filled up, no bar has long holes. -/
lemma FilledTo.finish (htolerance : 0 ≤ g.tolerance) (h : FilledTo g time covered s) :
    ∀ c ∈ s.finish g, c.Gapless (2 * g.tolerance) g.length := by
  unfold Scanner.finish
  split
  · exact fun c hc => h.closed c (List.mem_reverse.mp hc)
  · rename_i first rest hcurrent
    have htiles := h.current
    rw [hcurrent] at htiles
    have hcovered : Scanner.covered first rest = covered :=
      covered_eq (fun f hf => (htiles.mem hf).2) (htiles.exists_stop_eq (List.cons_ne_nil _ _))
    intro c hc
    rw [List.mem_reverse, hcovered] at hc
    split at hc
    · rename_i hmissing
      let filler : Fragment Rat := { offset := covered, duration := g.length - covered }
      have hstop : filler.stop = g.length := add_sub_cancel _ _
      have hlasts : filler.offset < filler.stop := by
        rw [hstop]
        exact sub_pos.mp (htolerance.trans_lt hmissing)
      have htiles : TilesWithin (2 * g.tolerance) Fragment.offset Fragment.stop 0
          (filler :: s.current).reverse g.length := by
        rw [List.reverse_cons, ← hstop]
        exact h.current.concat le_rfl (le_add_of_nonneg_right (by linarith)) hlasts
      exact gapless_close (List.cons_ne_nil _ _) h.closed htiles le_rfl (by linarith) c hc
    · rename_i hfull
      have hne : s.current ≠ [] := fun hnil => by simp [hnil] at hcurrent
      exact gapless_close hne h.closed h.current h.covered_le (by linarith) c hc

end Scanner

/-! ## Voices -/

namespace Grid

open Scanner

variable {g : Grid Rat} {shift : Rat} {s s' : Scanner Rat} {events : List (Event Rat)}

/-- Before the first event everything up to the shift is placed, by the silence of an upbeat if
there is one. -/
lemma Begins.filledTo (hlength : 0 < g.length) (htolerance : 0 ≤ g.tolerance)
    (h : g.Begins shift s) : ∃ covered, FilledTo g shift covered s := by
  have hstart : FilledTo g 0 0 {} := by
    refine ⟨fun _ hc => absurd hc List.not_mem_nil, rfl, hlength.le, ?_, ?_,
      fun hne => absurd rfl hne⟩
    · simp
    · simpa using htolerance
  cases h with
  | plain => exact ⟨0, hstart⟩
  | upbeat hshift hsilence =>
    obtain ⟨⟨hshort, hpartial⟩, hpart⟩ := Option.ite_none_right_eq_some.mp hshift
    obtain rfl := Option.some.inj hpart
    have hlasts : 0 < g.length - g.pickup := by linarith
    rw [Scalar.rat_zero, zero_add] at hsilence
    exact hsilence.filledTo hlength htolerance le_rfl (by linarith) hlasts hstart

/-- Where silence is filled, every event of a line begins soon behind what is placed before it, and
with it everything up to its end is placed. -/
lemma Scans.filledTo (hlength : 0 < g.length) (htolerance : 0 ≤ g.tolerance)
    (hfill : g.fillGaps = true) {state : Scanner Rat × Rat} {covered : Rat}
    (h : g.Scans shift state events s')
    (hevents : ∀ e ∈ events, state.2 ≤ e.onset + shift ∧ 0 < e.duration)
    (hapart : events.Pairwise fun e f => e.stop ≤ f.onset)
    (hs : FilledTo g state.2 covered state.1) :
    ∃ time covered', FilledTo g time covered' s' := by
  have hexpected {expected : Rat} {e : Event Rat} (hbehind : expected ≤ e.onset + shift)
      (hlasts : 0 < e.duration) :
      Scalar.max expected (e.onset + shift + e.duration) = e.onset + shift + e.duration := by
    rw [Scalar.rat_max]
    exact max_eq_right (by linarith)
  have hlater {e f : Event Rat} (h : e.stop ≤ f.onset) :
      e.onset + shift + e.duration ≤ f.onset + shift := by
    rw [Event.stop] at h
    linarith
  induction h generalizing covered with
  | nil => exact ⟨_, _, hs⟩
  | gap hgap hsilence hevent _ ih =>
    obtain ⟨⟨hbehind, hlasts⟩, hrest⟩ := List.forall_mem_cons.mp hevents
    obtain ⟨hnext, hapart⟩ := List.pairwise_cons.mp hapart
    have hfar := hgap.2
    rw [add_sub_cancel] at hsilence
    rw [hexpected hbehind hlasts] at ih
    obtain ⟨_, hrested⟩ := hsilence.filledTo hlength htolerance le_rfl (by linarith)
      (by linarith) hs
    obtain ⟨_, hplaced⟩ := hevent.filledTo hlength htolerance le_rfl (by linarith)
      (by linarith) hrested
    exact ih (fun f hf => ⟨hlater (hnext f hf), (hrest f hf).2⟩) hapart hplaced
  | event hnot hevent _ ih =>
    obtain ⟨⟨hbehind, hlasts⟩, hrest⟩ := List.forall_mem_cons.mp hevents
    obtain ⟨hnext, hapart⟩ := List.pairwise_cons.mp hapart
    rw [hexpected hbehind hlasts] at ih
    obtain ⟨_, hplaced⟩ := hevent.filledTo hlength htolerance hbehind
      (not_lt.mp fun hfar => hnot ⟨hfill, hfar⟩) (by linarith) hs
    exact ih (fun f hf => ⟨hlater (hnext f hf), (hrest f hf).2⟩) hapart hplaced

/-- Where silence is filled, an upbeat is only marked. -/
lemma fragments_markPickup (hfill : g.fillGaps = true) (slots : List (Slot Rat)) :
    (g.markPickup slots).map Slot.fragments = slots.map Slot.fragments := by
  cases slots with
  | nil => rfl
  | cons first rest =>
    rw [markPickup]
    split
    · rfl
    · rfl

/-- Repeat marks do not change what is in the bars. -/
lemma fragments_mark (slots : List (Slot Rat)) :
    (g.mark slots).map Slot.fragments = slots.map Slot.fragments :=
  List.map_map

/-- Where silence is filled, the fragments of every bar follow each other without overlap, and
nowhere in the bar is more than twice the tolerance left free between them. Without a tolerance they
tile the bar. -/
theorem segment_gapless (hlength : 0 < g.length) (htolerance : 0 ≤ g.tolerance)
    (hfill : g.fillGaps = true) (hevents : ∀ e ∈ events, 0 ≤ e.onset ∧ 0 < e.duration)
    (hapart : events.Pairwise fun e f => e.stop ≤ f.onset) :
    ∃ slots, g.segment events = .ok slots ∧ ∀ s ∈ slots,
      s.fragments.Pairwise (fun f f' => f.stop ≤ f'.offset) ∧
      (∀ a b, s.IsHole g.length a b → b - a ≤ 2 * g.tolerance) ∧
      (g.tolerance = 0 → Tiles Fragment.offset Fragment.stop 0 s.fragments g.length) := by
  obtain ⟨shift, start, s', hbegins, hscans, hcut⟩ := cuts_cut hlength htolerance events
  obtain ⟨_, hstart⟩ := hbegins.filledTo hlength htolerance
  obtain ⟨_, _, hfilled⟩ := hscans.filledTo hlength htolerance hfill
    (fun e he => ⟨le_add_of_nonneg_left (hevents e he).1, (hevents e he).2⟩) hapart hstart
  refine ⟨_, segment_eq_cut hlength htolerance events, fun s hs => ?_⟩
  have hfragments : s.fragments ∈ (g.cut events).map Slot.fragments := List.mem_map_of_mem hs
  rw [hcut, fragments_mark, fragments_markPickup hfill] at hfragments
  obtain ⟨c, hc, heq⟩ := List.mem_map.mp hfragments
  have hgapless : s.Gapless (2 * g.tolerance) g.length := by
    rw [Slot.Gapless, ← heq]
    exact hfilled.finish htolerance c hc
  refine ⟨?_, fun a b hhole => hgapless.hole_le hhole, fun hexact => ?_⟩
  · obtain ⟨_, htiles, -⟩ := hgapless
    exact htiles.pairwise
  · rw [hexact, mul_zero] at hgapless
    exact hgapless.tiles

/-- Behind an upbeat of a quarter note, a note goes on over a bar line, and another one begins
shortly before the next: in none of the four bars is more than forty milliseconds left free. -/
theorem segment_gapless_upbeat :
    let g : Grid Rat := { length := 2000, tolerance := 20, pickup := 500 }
    let events : List (Event Rat) :=
      [{ onset := 10, duration := 480, pitch := some 0 },
        { onset := 500, duration := 2615, pitch := some 4 },
        { onset := 4485, duration := 500, pitch := some 2 }]
    let slots : List (Slot Rat) :=
      [{ index := 0, pickup := true, unit := 0, fragments :=
          [{ offset := 0, duration := 1500 },
            { offset := 1510, duration := 480, pitch := some 0 }] },
        { index := 1, unit := 0, fragments :=
          [{ offset := 0, duration := 2000, pitch := some 4 }] },
        { index := 2, unit := 0, fragments :=
          [{ offset := 0, duration := 615, pitch := some 4 },
            { offset := 615, duration := 1370 }] },
        { index := 3, unit := 0, fragments :=
          [{ offset := 0, duration := 485, pitch := some 2 },
            { offset := 485, duration := 1515 }] }]
    (0 < g.length ∧ 0 ≤ g.tolerance ∧ g.fillGaps = true) ∧
      (∀ e ∈ events, 0 ≤ e.onset ∧ 0 < e.duration) ∧
      events.Pairwise (fun e f => e.stop ≤ f.onset) ∧
      g.segment events = .ok slots ∧ ∀ s ∈ slots, ∀ a b, s.IsHole 2000 a b → b - a ≤ 40 := by
  intro g events slots
  have hgrid : 0 < g.length ∧ 0 ≤ g.tolerance ∧ g.fillGaps = true := by
    norm_num [g]
  have hevents : ∀ e ∈ events, 0 ≤ e.onset ∧ 0 < e.duration := by
    norm_num [events]
  have hapart : events.Pairwise fun e f => e.stop ≤ f.onset := by
    norm_num [events, Event.stop]
  have hsegment : g.segment events = .ok slots := by decide +kernel
  obtain ⟨slots', hslots, hbars⟩ :=
    segment_gapless hgrid.1 hgrid.2.1 hgrid.2.2 hevents hapart
  obtain rfl : slots = slots' := Except.ok.inj (hsegment.symm.trans hslots)
  refine ⟨hgrid, hevents, hapart, hsegment, fun s hs a b hhole => ?_⟩
  have hle := (hbars s hs).2.1 a b hhole
  norm_num [g] at hle
  linarith

end Grid

end PatternScore
