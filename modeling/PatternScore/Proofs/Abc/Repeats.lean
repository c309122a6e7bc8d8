import Mathlib
import PatternScore.Proofs.Abc.Voices
import PatternScore.Proofs.Conversion.ExactTiming

/-!
# Repeat marks on the grid of bars

Bars are counted twice: by bar lines when a tune is read, and by time when its events are cut. Where
the written bars are as long as bars, but for an upbeat, both counts give the same bar, so that the
bars that are marked are those at which the signs stand (`Tune.marked_iff`). What carries this is
that a bar line with something behind it stands at a multiple of the length of a bar, once the
timeline is moved by the part of the first bar before the upbeat (`Aligned`).
-/

namespace PatternScore

/-! ## Marks -/

namespace Markers

/-- A repeat opens at the bar. -/
def OpensAt (markers : Markers) (bar : Int) : Prop :=
  (markers.at? bar).any RepeatMark.isOpening

/-- A repeat closes at the bar. -/
def ClosesAt (markers : Markers) (bar : Int) : Prop :=
  (markers.at? bar).any RepeatMark.isClosing

/-- Every mark bounds a repeat. -/
def Bounding (markers : Markers) : Prop :=
  ∀ bar m, markers.at? bar = some m → m.isOpening ∨ m.isClosing

/-- Setting the mark of a bar sets this one and no other. -/
lemma at?_set (markers : Markers) (index bar : Int) (m : RepeatMark) :
    (markers.set index m).at? bar = if bar = index then some m else markers.at? bar := by
  induction markers with
  | nil => by_cases h : bar = index <;> simp [set, at?, h]
  | cons entry rest ih =>
    obtain ⟨i, old⟩ := entry
    unfold at? at ih ⊢
    rw [set]
    by_cases hi : i = index
    · by_cases h : bar = index
      · simp [hi, h]
      · simp [hi, h, List.lookup_cons, beq_eq_false_iff_ne.mpr h]
    · by_cases hbar : bar = i
      · simp [hi, hbar]
      · simp [hi, List.lookup_cons, beq_eq_false_iff_ne.mpr hbar, ih]

/-- The mark of a bar that gets another one. -/
lemma at?_add (markers : Markers) (index bar : Int) (m : RepeatMark) :
    (markers.add index m).at? bar =
      if bar = index then some (if (markers.at? index).all (· = m) then m else .both)
      else markers.at? bar := by
  unfold add
  cases h : markers.at? index with
  | none => simp [at?_set]
  | some old => simp [at?_set]

variable {markers : Markers} {index bar : Int}

/-- With a closing sign more, a repeat closes at its bar and where one closed before. If one opened
there, the bar is a repeat on its own. -/
lemma closesAt_add_closes :
    (markers.add index .closes).ClosesAt bar ↔ bar = index ∨ markers.ClosesAt bar := by
  unfold ClosesAt
  rw [at?_add]
  by_cases h : bar = index
  · simp only [h, if_pos]
    split <;> simp [RepeatMark.isClosing]
  · simp [h]

/-- With an opening sign more, a repeat opens at its bar and where one opened before. -/
lemma opensAt_add_opens :
    (markers.add index .opens).OpensAt bar ↔ bar = index ∨ markers.OpensAt bar := by
  unfold OpensAt
  rw [at?_add]
  by_cases h : bar = index
  · simp only [h, if_pos]
    split <;> simp [RepeatMark.isOpening]
  · simp [h]

/-- A closing sign opens nothing, unless it meets a mark that bounds no repeat. -/
lemma Bounding.opensAt_add_closes (h : markers.Bounding) :
    (markers.add index .closes).OpensAt bar ↔ markers.OpensAt bar := by
  unfold OpensAt
  rw [at?_add]
  by_cases hbar : bar = index
  · subst hbar
    cases hold : markers.at? bar with
    | none => simp [RepeatMark.isOpening]
    | some old =>
      have := h bar old hold
      cases old <;> simp_all [RepeatMark.isOpening, RepeatMark.isClosing]
  · simp [hbar]

/-- An opening sign closes nothing, under the same condition. -/
lemma Bounding.closesAt_add_opens (h : markers.Bounding) :
    (markers.add index .opens).ClosesAt bar ↔ markers.ClosesAt bar := by
  unfold ClosesAt
  rw [at?_add]
  by_cases hbar : bar = index
  · subst hbar
    cases hold : markers.at? bar with
    | none => simp [RepeatMark.isClosing]
    | some old =>
      have := h bar old hold
      cases old <;> simp_all [RepeatMark.isOpening, RepeatMark.isClosing]
  · simp [hbar]

/-- Signs that bound repeats add no other marks. -/
lemma Bounding.add (h : markers.Bounding) {m : RepeatMark} (hm : m.isOpening ∨ m.isClosing) :
    (markers.add index m).Bounding := by
  intro bar found hfound
  rw [at?_add] at hfound
  split at hfound
  · obtain rfl := Option.some.inj hfound
    split
    · exact hm
    · exact .inl rfl
  · exact h bar found hfound

end Markers

namespace Abc

/-! ## The timeline -/

/-- The bar lines of a voice with the times at which they stand; a quarter note lasts `beat`, and
the notes that come first belong to a tuplet with the factor `tuplet`. -/
def barLines (beat : Rat) : Rat → Rat → List (Element Rat) → List (Rat × BarLine)
  | _, _, [] => []
  | time, tuplet, .note n :: rest =>
    let factor := n.tuplet.getD tuplet
    barLines beat (time + max 0 (n.duration * 4 * beat * factor))
      (if n.endsTuplet then 1 else factor) rest
  | time, tuplet, .barLine b :: rest => (time, b) :: barLines beat time tuplet rest
  | time, tuplet, .other :: rest => barLines beat time tuplet rest

/-- The lengths of the bars that are closed by bar lines, the first of which begins at `start`. A
bar line with nothing before it closes no bar. -/
def closedBars : Rat → List (Rat × BarLine) → List Rat
  | _, [] => []
  | start, (time, _) :: rest =>
    if start < time then (time - start) :: closedBars time rest else closedBars start rest

/-- Where the bar lines stand that close bars: behind `bars` bars, the next at the end of the bar
`bars` on the grid, once the timeline is moved by `shift`. -/
def Scheduled (length shift : Rat) : Nat → Rat → List (Rat × BarLine) → Prop
  | _, _, [] => True
  | bars, start, (time, _) :: rest =>
    if start < time then
      time + shift = (bars + 1 : Nat) * length ∧ Scheduled length shift (bars + 1) time rest
    else Scheduled length shift bars start rest

namespace Voice

variable {v v' : Voice Rat} {length shift : Rat} {b : BarLine}

/-! ## What a bar line does -/

/-- Behind a bar line nothing stands in the bar yet. -/
@[simp] lemma barLine_hasContent : (v.barLine length b).hasContent = false := by
  unfold barLine closeBar mark
  split_ifs <;> simp_all

/-- A bar line counts a bar if something stands before it. -/
@[simp] lemma barLine_bars :
    (v.barLine length b).bars = if v.hasContent then v.bars + 1 else v.bars := by
  unfold barLine closeBar mark
  split_ifs <;> rfl

/-- The next bar begins at the bar line, unless nothing was closed. -/
@[simp] lemma barLine_barStart :
    (v.barLine length b).barStart = if v.hasContent then v.cursor else v.barStart := by
  unfold barLine closeBar mark
  split_ifs <;> rfl

/-- Only a bar line that closes a bar can find an upbeat. -/
@[simp] lemma barLine_pickup : (v.barLine length b).pickup =
    if v.hasContent then (v.closeBar length).pickup else v.pickup := by
  unfold barLine closeBar mark
  split_ifs <;> rfl

/-- A closing repeat belongs to the last bar that is closed, an opening one to the bar behind. -/
lemma barLine_markers : (v.barLine length b).markers =
    let bars := (v.barLine length b).bars
    let closed := if b.closes ∧ 0 < bars then v.markers.add (bars - 1) .closes else v.markers
    if b.opens then closed.add bars .opens else closed := by
  rw [barLine_bars]
  unfold barLine closeBar mark
  cases v.hasContent with
  | true =>
    have hpos : 0 < v.bars + 1 := Nat.succ_pos _
    have hlast : ((v.bars + 1 : Nat) : Int) - 1 = v.bars := by omega
    simp only [if_true, hpos, hlast, and_true]
    split_ifs <;> rfl
  | false =>
    simp only [Bool.false_eq_true, if_false]
    split_ifs <;> rfl

/-! ## What a note does -/

/-- A pitch adds an event or extends one, and no more. -/
lemma exists_pitch_eq (v : Voice Rat) (p : Place Rat) (onset duration : Rat) (x : Pitch) :
    ∃ events ties, v.pitch p onset duration x = { v with events, ties } := by
  unfold pitch extend
  cases htied : if x.endsTie then v.ties.lookup (x.step - p.tonic) else none with
  | none =>
    simp only [htied]
    split <;> exact ⟨_, _, rfl⟩
  | some index =>
    simp only [htied]
    split <;> exact ⟨_, _, rfl⟩

/-- The pitches of a chord change the events and the ties of a voice, and no more. -/
lemma exists_pitches_eq {p : Place Rat} {onset duration : Rat} {pitches : Listing Pitch}
    (h : pitches.foldlM (fun v x => do return v.pitch p onset duration (← x)) v = .ok v') :
    ∃ events ties, v' = { v with events, ties } := by
  refine foldlM_keeps (P := fun after => ∃ events ties, after = { v with events, ties })
    (fun item _ between after hitem hbetween => ?_) h ⟨v.events, v.ties, rfl⟩
  obtain ⟨events, ties, rfl⟩ := hbetween
  obtain ⟨x, -, hx⟩ := exists_of_bind_eq_ok hitem
  obtain rfl := Except.ok.inj hx
  obtain ⟨events', ties', hpitch⟩ := exists_pitch_eq { v with events, ties } p onset duration x
  exact ⟨events', ties', hpitch⟩

/-- A note moves the cursor by what it lasts. -/
lemma exists_note_eq {p : Place Rat} {n : Note Rat} (h : v.note p n = .ok v') :
    let factor := n.tuplet.getD v.tuplet
    let lasting := max 0 (n.duration * 4 * p.beat * factor)
    ∃ events ties, v' = { v with
      cursor := v.cursor + lasting
      hasContent := v.hasContent || decide (0 < lasting)
      tuplet := if n.endsTuplet then 1 else factor
      events, ties } := by
  intro factor lasting
  have hone : (Scalar.ofNat 1 : Rat) = 1 := rfl
  have hlasting : lasting = max 0 (n.duration * Scalar.ofNat 4 * p.beat * factor) := rfl
  unfold note at h
  by_cases hsilent : n.duration * Scalar.ofNat 4 * p.beat * factor ≤ Scalar.zero
  · have hnothing : lasting = 0 := max_eq_left hsilent
    have hv := Except.ok.inj ((if_pos hsilent).symm.trans h)
    refine ⟨v.events, v.ties, ?_⟩
    simp [← hv, hnothing, hone, factor]
  · have hpositive : 0 < n.duration * Scalar.ofNat 4 * p.beat * factor := not_le.mp hsilent
    have hloud : (v.hasContent || decide (0 < lasting)) = true := by
      rw [hlasting, max_eq_right hpositive.le, decide_eq_true hpositive, Bool.or_true]
    have hrest := (if_neg hsilent).symm.trans h
    rw [hloud, hlasting, max_eq_right hpositive.le, ← hone]
    by_cases hsilence : n.isRest
    · exact ⟨_, _, (Except.ok.inj ((if_pos hsilence).symm.trans hrest)).symm⟩
    · exact exists_pitches_eq ((if_neg hsilence).symm.trans hrest)

/-! ## Bars by lines and bars by time -/

/-- The count of bars fits the times: nothing is closed while the first bar is open, and something
stands in a bar if time has passed in it. -/
structure Counts (v : Voice Rat) : Prop where
  /-- The bar that is read begins up to the cursor. -/
  start_le : v.barStart ≤ v.cursor
  /-- Something stands in it if time has passed in it. -/
  content : v.hasContent = true ↔ v.barStart < v.cursor
  /-- The first bar begins with the voice. -/
  first : v.bars = 0 → v.barStart = 0

/-- Before the first element no bar is counted and no time has passed. -/
lemma counts_start : Counts .start where
  start_le := le_rfl
  content := by simp [start]
  first _ := rfl

/-- A note that lasts puts something into the bar, and one that does not changes neither side. -/
lemma Counts.note (h : Counts v) {p : Place Rat} {n : Note Rat} (hv : v.note p n = .ok v') :
    Counts v' := by
  obtain ⟨events, ties, rfl⟩ := exists_note_eq hv
  set lasting : Rat := max 0 (n.duration * 4 * p.beat * n.tuplet.getD v.tuplet)
  have hlasting : 0 ≤ lasting := le_max_left _ _
  have hle := h.start_le
  refine ⟨by linarith, ?_, h.first⟩
  simp only [Bool.or_eq_true, h.content, decide_eq_true_eq]
  constructor
  · rintro (hlt | hlt) <;> linarith
  · intro hlt
    by_contra hnone
    push Not at hnone
    linarith [hnone.1, hnone.2]

/-- Behind a bar line the next bar begins. -/
lemma Counts.barStart_barLine (h : Counts v) : (v.barLine length b).barStart = v.cursor := by
  rw [barLine_barStart]
  by_cases hcontent : v.hasContent
  · rw [if_pos hcontent]
  · rw [if_neg hcontent]
    exact le_antisymm h.start_le (not_lt.mp fun hlt => hcontent (h.content.mpr hlt))

/-- A bar line begins a bar in which no time has passed. -/
lemma Counts.barLine (h : Counts v) : Counts (v.barLine length b) where
  start_le := by rw [h.barStart_barLine, barLine_cursor]
  content := by simp [h.barStart_barLine]
  first := by
    rw [barLine_bars]
    by_cases hcontent : v.hasContent
    · simp [hcontent]
    · simp only [barLine_barStart, hcontent, if_false, Bool.false_eq_true]
      exact h.first

/-- The bars that are closed stand on the grid, once the timeline is moved by `shift`. -/
structure Aligned (length shift : Rat) (v : Voice Rat) : Prop extends Counts v where
  /-- A later bar begins at a bar line of the grid. -/
  later : 0 < v.bars → v.barStart + shift = v.bars * length
  /-- Every mark bounds a repeat. -/
  bounding : v.markers.Bounding

/-- A bar line that stands where the grid ends a bar keeps the bars on the grid, and its marks are
set for the bar that it closes or opens. -/
lemma Aligned.barLine (h : Aligned length shift v)
    (hscheduled : v.barStart < v.cursor → v.cursor + shift = (v.bars + 1 : Nat) * length)
    (barLength : Rat) : Aligned length shift (v.barLine barLength b) := by
  refine { toCounts := h.toCounts.barLine, later := fun hpos => ?_, bounding := ?_ }
  · by_cases hcontent : v.hasContent
    · rw [h.barStart_barLine, barLine_bars, if_pos hcontent]
      exact hscheduled (h.content.mp hcontent)
    · rw [barLine_bars, if_neg hcontent] at hpos ⊢
      rw [barLine_barStart, if_neg hcontent]
      exact h.later hpos
  · rw [barLine_markers]
    have hclosed : ∀ bar, (v.markers.add bar .closes).Bounding :=
      fun bar => h.bounding.add (.inr rfl)
    dsimp only
    split_ifs
    · exact (hclosed _).add (.inl rfl)
    · exact h.bounding.add (.inl rfl)
    · exact hclosed _
    · exact h.bounding

/-- A bar line behind `bars` bars stands where the last of them ends and the next one begins. -/
lemma Aligned.stands (h : Aligned length shift v) (hbar : v.barStart = v.cursor)
    (hshift : 0 ≤ shift) (hlength : shift < length) (bar : Int) :
    ((0 < v.bars ∧ bar = v.bars - 1) ↔
      0 < v.cursor ∧ v.cursor + shift = (bar + 1 : Int) * length) ∧
    (bar = v.bars ↔ if bar = 0 then v.cursor = 0 else v.cursor + shift = bar * length) := by
  have hpos : 0 < length := hshift.trans_lt hlength
  have hfirst : v.bars = 0 → v.cursor = 0 := fun hbars => hbar ▸ h.first hbars
  have hlater : 0 < v.bars → v.cursor + shift = (v.bars : Int) * length := by
    intro hbars
    rw [← hbar, h.later hbars, Int.cast_natCast]
  have hsounds : 0 < v.bars → 0 < v.cursor := by
    intro hbars
    have hone : (1 : Rat) ≤ (v.bars : Int) := by exact_mod_cast hbars
    have hle : 1 * length ≤ (v.bars : Int) * length := by gcongr
    linarith [hlater hbars]
  -- Different numbers of bars end at different times.
  have hunique : ∀ m n : Int, (m : Rat) * length = n * length → m = n := by
    intro m n heq
    exact_mod_cast mul_right_cancel₀ hpos.ne' heq
  constructor
  · constructor
    · rintro ⟨hbars, rfl⟩
      refine ⟨hsounds hbars, ?_⟩
      rw [hlater hbars, sub_add_cancel]
    · rintro ⟨hcursor, heq⟩
      have hbars : 0 < v.bars := Nat.pos_of_ne_zero fun hnone => hcursor.ne' (hfirst hnone)
      refine ⟨hbars, ?_⟩
      have := hunique _ _ ((hlater hbars).symm.trans heq)
      omega
  · rcases Nat.eq_zero_or_pos v.bars with hbars | hbars
    · rw [hbars, hfirst hbars]
      by_cases hbar : bar = 0
      · simp [hbar]
      · simp only [hbar, if_false, zero_add, Nat.cast_zero, false_iff]
        intro heq
        have hle : (0 : Rat) ≤ bar * length := heq ▸ hshift
        have hlt : (bar : Rat) * length < 1 * length := by linarith
        have hnonneg : (0 : Rat) ≤ bar := nonneg_of_mul_nonneg_left hle hpos
        have hone : (bar : Rat) < 1 := lt_of_mul_lt_mul_right hlt hpos.le
        norm_cast at hnonneg hone
        omega
    · rw [hlater hbars]
      by_cases hbar : bar = 0
      · simp only [hbar, if_true, (hsounds hbars).ne', iff_false]
        omega
      · rw [if_neg hbar]
        exact ⟨fun heq => by rw [heq], fun heq => (hunique _ _ heq).symm⟩

/-- A closing repeat is marked at the bar that ends where its sign stands, and an opening one at the
bar that begins there. -/
lemma Aligned.marks_barLine {barLength : Rat} (h : Aligned length shift v)
    (h' : Aligned length shift (v.barLine barLength b)) (hshift : 0 ≤ shift)
    (hlength : shift < length) (bar : Int) :
    ((v.barLine barLength b).markers.ClosesAt bar ↔ v.markers.ClosesAt bar ∨
      b.closes ∧ 0 < v.cursor ∧ v.cursor + shift = (bar + 1 : Int) * length) ∧
    ((v.barLine barLength b).markers.OpensAt bar ↔ v.markers.OpensAt bar ∨
      b.opens ∧ if bar = 0 then v.cursor = 0 else v.cursor + shift = bar * length) := by
  obtain ⟨hcloses, hopens⟩ := h'.stands
    (h.toCounts.barStart_barLine.trans barLine_cursor.symm) hshift hlength bar
  rw [barLine_cursor] at hcloses hopens
  rw [← hcloses, ← hopens, ← and_assoc, barLine_markers]
  set bars := (v.barLine barLength b).bars
  have hbounding : (v.markers.add (bars - 1) .closes).Bounding := h.bounding.add (.inr rfl)
  dsimp only
  split_ifs with hopen hclose hclose
  · rw [hbounding.closesAt_add_opens, Markers.closesAt_add_closes, Markers.opensAt_add_opens,
      h.bounding.opensAt_add_closes]
    simp [hclose, hopen, or_comm]
  · rw [h.bounding.closesAt_add_opens, Markers.opensAt_add_opens]
    simp [hclose, hopen, or_comm]
  · rw [Markers.closesAt_add_closes, h.bounding.opensAt_add_closes]
    simp [hclose, hopen, or_comm]
  · simp [hclose, hopen]

/-- A note moves neither the count of bars nor their start. -/
lemma Aligned.note (h : Aligned length shift v) {p : Place Rat} {n : Note Rat}
    (hv : v.note p n = .ok v') : Aligned length shift v' := by
  have hcounts := h.toCounts.note hv
  obtain ⟨events, ties, rfl⟩ := exists_note_eq hv
  exact { toCounts := hcounts, later := h.later, bounding := h.bounding }

end Voice

/-! ## A whole voice -/

variable {s : Tune.Setting Rat} {v v' : Voice Rat} {es : List (Element Rat)}
  {length shift start : Rat} {lines : List (Rat × BarLine)}

/-- What a reading voice keeps, when reading goes on with an element. -/
lemma exists_note_of_element {number notes notes' : Nat} {n : Note Rat}
    (h : Tune.element s number (v, notes) (.note n) = .ok (v', notes')) :
    ∃ p : Voice.Place Rat, p.beat = s.beat ∧ v.note p n = .ok v' := by
  obtain ⟨after, hafter, h⟩ := exists_of_bind_eq_ok h
  obtain ⟨rfl, -⟩ := Prod.mk.inj (Except.ok.inj h)
  exact ⟨_, rfl, hafter⟩

/-- Behind a bar line the others are still scheduled. -/
lemma Voice.Counts.scheduled_barLine {b : BarLine} (h : v.Counts) (barLength : Rat)
    (hscheduled : Scheduled length shift v.bars v.barStart ((v.cursor, b) :: lines)) :
    (v.barStart < v.cursor → v.cursor + shift = (v.bars + 1 : Nat) * length) ∧
      Scheduled length shift (v.barLine barLength b).bars (v.barLine barLength b).barStart
        lines := by
  rw [Scheduled] at hscheduled
  rw [Voice.barLine_bars, Voice.barLine_barStart]
  by_cases hcontent : v.barStart < v.cursor
  · rw [if_pos hcontent] at hscheduled
    rw [if_pos (h.content.mpr hcontent), if_pos (h.content.mpr hcontent)]
    exact ⟨fun _ => hscheduled.1, hscheduled.2⟩
  · rw [if_neg hcontent] at hscheduled
    rw [if_neg (mt h.content.mp hcontent), if_neg (mt h.content.mp hcontent)]
    exact ⟨fun hlt => absurd hlt hcontent, hscheduled⟩

/-- The marks of a voice tell where its repeat signs stand. -/
lemma Reads.marks (h : Reads s v es v') (hv : v.Aligned length shift)
    (hscheduled : Scheduled length shift v.bars v.barStart (barLines s.beat v.cursor v.tuplet es))
    (hshift : 0 ≤ shift) (hlength : shift < length) (bar : Int) :
    (v'.markers.ClosesAt bar ↔ v.markers.ClosesAt bar ∨
      ∃ x ∈ barLines s.beat v.cursor v.tuplet es,
        x.2.closes ∧ 0 < x.1 ∧ x.1 + shift = (bar + 1 : Int) * length) ∧
    (v'.markers.OpensAt bar ↔ v.markers.OpensAt bar ∨
      ∃ x ∈ barLines s.beat v.cursor v.tuplet es,
        x.2.opens ∧ if bar = 0 then x.1 = 0 else x.1 + shift = bar * length) := by
  induction h with
  | nil v => simp [barLines]
  | @cons v v₁ v' e rest number notes notes' first more ih =>
    cases e with
    | note n =>
      obtain ⟨p, hbeat, hnote⟩ := exists_note_of_element first
      have hv₁ := hv.note hnote
      obtain ⟨events, ties, rfl⟩ := Voice.exists_note_eq hnote
      rw [hbeat] at *
      exact ih hv₁ hscheduled
    | barLine b =>
      obtain ⟨rfl, -⟩ := Prod.mk.inj (Except.ok.inj first)
      obtain ⟨hstands, hrest⟩ := hv.toCounts.scheduled_barLine s.barLength hscheduled
      have hv₁ : (v.barLine s.barLength b).Aligned length shift := hv.barLine hstands _
      obtain ⟨hcloses, hopens⟩ := hv.marks_barLine hv₁ hshift hlength bar
      rw [Voice.barLine_cursor, Voice.barLine_tuplet] at ih
      obtain ⟨ihcloses, ihopens⟩ := ih hv₁ hrest
      rw [ihcloses, ihopens, hcloses, hopens]
      simp only [barLines, List.exists_mem_cons_iff, or_assoc, and_self]
    | other =>
      obtain ⟨rfl, -⟩ := Prod.mk.inj (Except.ok.inj first)
      exact ih hv hscheduled

/-- The upbeat of a voice is its first bar, if that is shorter than a bar. -/
lemma Reads.pickup_eq (h : Reads s v es v') (hv : v.Counts) : v'.pickup =
    if v.bars = 0 then
      ((closedBars v.barStart (barLines s.beat v.cursor v.tuplet es)).head?.filter
        (Voice.isUpbeat s.barLength)).getD v.pickup
    else v.pickup := by
  induction h with
  | nil v => simp [barLines, closedBars]
  | @cons v v₁ v' e rest number notes notes' first more ih =>
    cases e with
    | note n =>
      obtain ⟨p, hbeat, hnote⟩ := exists_note_of_element first
      have hv₁ := hv.note hnote
      obtain ⟨events, ties, rfl⟩ := Voice.exists_note_eq hnote
      rw [hbeat] at *
      exact ih hv₁
    | barLine b =>
      obtain ⟨rfl, -⟩ := Prod.mk.inj (Except.ok.inj first)
      rw [ih hv.barLine, barLines, closedBars, hv.barStart_barLine]
      by_cases hcontent : v.barStart < v.cursor
      · rw [if_pos hcontent, Voice.barLine_bars, Voice.barLine_pickup,
          if_pos (hv.content.mpr hcontent), if_pos (hv.content.mpr hcontent),
          if_neg (Nat.succ_ne_zero _), List.head?_cons, Voice.closeBar]
        cases hupbeat : Voice.isUpbeat s.barLength (v.cursor - v.barStart) <;>
          simp [hupbeat, Option.filter]
      · have hbegins : v.barStart = v.cursor := le_antisymm hv.start_le (not_lt.mp hcontent)
        rw [if_neg hcontent, Voice.barLine_bars, Voice.barLine_pickup,
          if_neg (mt hv.content.mp hcontent), if_neg (mt hv.content.mp hcontent), hbegins,
          Voice.barLine_cursor, Voice.barLine_tuplet]
    | other =>
      obtain ⟨rfl, -⟩ := Prod.mk.inj (Except.ok.inj first)
      exact ih hv

/-- Bars of the written lengths stand on the grid, once something is closed. -/
lemma scheduled_of_closedBars {bars : Nat} (hstart : start + shift = bars * length)
    (h : ∀ written ∈ closedBars start lines, written = length) :
    Scheduled length shift bars start lines := by
  induction lines generalizing bars start with
  | nil => trivial
  | cons line rest ih =>
    obtain ⟨time, b⟩ := line
    rw [closedBars] at h
    rw [Scheduled]
    by_cases htime : start < time
    · rw [if_pos htime] at h ⊢
      obtain ⟨hfirst, hrest⟩ := List.forall_mem_cons.mp h
      have hstop : time + shift = (bars + 1 : Nat) * length := by
        push_cast
        linarith
      exact ⟨hstop, ih hstop hrest⟩
    · rw [if_neg htime] at h ⊢
      exact ih hstart h

/-- Bars of the written lengths stand on the grid: the first one fills a bar together with the
shift. -/
lemma scheduled_zero (hfirst : ∀ written ∈ (closedBars start lines).head?, written + shift = length)
    (hlater : ∀ written ∈ (closedBars start lines).tail, written = length) (hstart : start = 0) :
    Scheduled length shift 0 start lines := by
  induction lines with
  | nil => trivial
  | cons line rest ih =>
    obtain ⟨time, b⟩ := line
    rw [closedBars] at hfirst hlater
    rw [Scheduled]
    by_cases htime : start < time
    · rw [if_pos htime] at hfirst hlater ⊢
      have hstop : time + shift = (0 + 1 : Nat) * length := by
        have := hfirst _ rfl
        push_cast
        linarith
      exact ⟨hstop, scheduled_of_closedBars hstop hlater⟩
    · rw [if_neg htime] at hfirst hlater ⊢
      exact ih hfirst hlater

/-- The part of the first bar before the upbeat, if the first written bar is a bar or an upbeat. -/
lemma shift_eq {g : Grid Rat} (htolerance : g.tolerance = 1) (hlength : 0 < g.length)
    {written : Option Rat} (hpickup : g.pickup = (written.filter (Voice.isUpbeat g.length)).getD 0)
    (hwritten : ∀ x ∈ written, x = g.length ∨ 1 < x ∧ x < g.length - 1) :
    0 ≤ g.shift?.getD 0 ∧ g.shift?.getD 0 < g.length ∧
      ∀ x ∈ written, x + g.shift?.getD 0 = g.length := by
  have hupbeat : ∀ x, Voice.isUpbeat g.length x = decide (0 < x ∧ x < g.length - 1) := by
    intro x
    rw [Voice.isUpbeat, Bool.decide_and]
    rfl
  unfold Grid.shift?
  rw [htolerance, hpickup]
  cases written with
  | none =>
    have hno : ¬ (1 : Rat) < 0 := by norm_num
    simp [hno, hlength]
  | some x =>
    obtain rfl | ⟨hlong, hshort⟩ := hwritten x rfl
    · have hfull : Voice.isUpbeat g.length g.length = false := by
        rw [hupbeat, decide_eq_false_iff_not]
        rintro ⟨-, hshort⟩
        linarith
      have hno : ¬ (1 : Rat) < 0 := by norm_num
      simp [Option.filter, hfull, hno, hlength]
    · have hpart : Voice.isUpbeat g.length x = true := by
        rw [hupbeat, decide_eq_true_eq]
        exact ⟨by linarith, hshort⟩
      have hfilter : (some x).filter (Voice.isUpbeat g.length) = some x := by
        simp [Option.filter, hpart]
      rw [hfilter, Option.getD_some, if_pos ⟨hlong, hshort⟩, Option.getD_some]
      refine ⟨by linarith, by linarith, fun y hy => ?_⟩
      rw [Option.mem_some_iff.mp hy]
      exact add_sub_cancel _ _

/-- A bar is marked as closing a repeat exactly if a closing sign behind the first note stands at
its end, and as opening one exactly if an opening sign stands at its beginning, on the timeline on
which events are cut into bars; the first bar is marked as opening one exactly if an opening sign
stands before all notes. -/
theorem Tune.marked_iff {t : Tune Rat} {d : Document Rat} {length beat : Rat}
    (h : t.extract = .ok d) (hlength : d.header.barLength = .ok length)
    (hbeat : d.header.msPerBeat = .ok beat)
    (hfirst : ∀ written ∈ (closedBars 0 (barLines beat 0 1 t.firstVoice)).head?,
      written = length ∨ 1 < written ∧ written < length - 1)
    (hlater : ∀ written ∈ (closedBars 0 (barLines beat 0 1 t.firstVoice)).tail,
      written = length) :
    let plan := Conversion.planOf policy Settings.standard d 0
    ∃ tolerance, plan.tolerance length = .ok tolerance ∧
      let g := plan.grid length tolerance
      let shift := g.shift?.getD 0
      ∀ bar : Int,
        (g.markers.ClosesAt bar ↔ ∃ x ∈ barLines beat 0 1 t.firstVoice,
          x.2.closes ∧ 0 < x.1 ∧ x.1 + shift = (bar + 1 : Int) * length) ∧
        (g.markers.OpensAt bar ↔ ∃ x ∈ barLines beat 0 1 t.firstVoice,
          x.2.opens ∧ if bar = 0 then x.1 = 0 else x.1 + shift = bar * length) := by
  obtain ⟨s, v, hlength', hbeat', hreads, hmarkers, hpickup⟩ := Tune.exists_reads h
  obtain rfl := Except.ok.inj (hlength.symm.trans hlength')
  obtain rfl := Except.ok.inj (hbeat.symm.trans hbeat')
  refine ⟨1, rfl, ?_⟩
  intro g shift bar
  have hpickup' := hpickup.trans (hreads.pickup_eq Voice.counts_start)
  obtain ⟨hshift, hshort, hfills⟩ := shift_eq (g := g) rfl
    (Header.pos_of_barLength hlength).2 hpickup' hfirst
  have hscheduled := scheduled_zero hfills hlater rfl
  have haligned : Voice.start.Aligned s.barLength shift :=
    { toCounts := Voice.counts_start
      later := fun hbars => absurd hbars (lt_irrefl 0)
      bounding := fun _ _ hmark => by cases hmark }
  have hmarks := hreads.marks haligned hscheduled hshift hshort bar
  have hg : g.markers = v.markers := hmarkers
  have hnone : ¬ (Voice.start (τ := Rat)).markers.ClosesAt bar ∧
      ¬ (Voice.start (τ := Rat)).markers.OpensAt bar := ⟨nofun, nofun⟩
  rw [hg, hmarks.1, hmarks.2]
  simp only [hnone.1, hnone.2, false_or]
  exact ⟨Iff.rfl, Iff.rfl⟩

/-- A tune with an upbeat and two repeats. -/
def upbeat : Tune Rat where
  lines := [.ok [.ok { voices := [.ok (
    [.note (quarters 1), .barLine { opens := true }, .note (quarters 4), .barLine {},
      .note (quarters 4), .barLine { closes := true }, .barLine { opens := true },
      .note (quarters 4), .barLine { closes := true }].map .ok)] }]]
where
  /-- A note of some quarters. -/
  quarters (count : Rat) : Note Rat := { duration := count / 4, pitches := [.ok { step := 0 }] }

/-- The tune with an upbeat, whose bars are 500, 2000, 2000 and 2000 milliseconds long: repeats
close at its third and its fourth bar and open at its second and its fourth. -/
theorem Tune.marked_iff_upbeat :
    closedBars 0 (barLines 500 0 1 upbeat.firstVoice) = [500, 2000, 2000, 2000] ∧
      ∃ d, upbeat.extract = .ok d ∧ d.pickup = 500 ∧ ∀ bar,
        ((d.voiceMarkers 0).ClosesAt bar ↔ bar = 2 ∨ bar = 3) ∧
          ((d.voiceMarkers 0).OpensAt bar ↔ bar = 1 ∨ bar = 3) := by
  have hread : (do
      let d ← upbeat.extract
      return (d.pickup, d.header.barLength, d.header.msPerBeat)) =
        .ok (500, .ok 2000, .ok 500) := by cbv
  obtain ⟨d, hextract, hread⟩ := exists_of_bind_eq_ok hread
  obtain ⟨hpickup, hread⟩ := Prod.mk.inj (Except.ok.inj hread)
  obtain ⟨hlength, hbeat⟩ := Prod.mk.inj hread
  have hlines : barLines 500 0 1 upbeat.firstVoice =
      [(500, { opens := true }), (2500, {}), (4500, { closes := true }),
        (4500, { opens := true }), (6500, { closes := true })] := by cbv
  have hclosed : closedBars 0 (barLines 500 0 1 upbeat.firstVoice) = [500, 2000, 2000, 2000] := by
    rw [hlines]
    cbv
  obtain ⟨tolerance, htolerance, hmarked⟩ := marked_iff hextract hlength hbeat
    (by rw [hclosed]; intro x hx; obtain rfl := Option.mem_some_iff.mp hx; norm_num)
    (by rw [hclosed]; simp)
  obtain rfl : 1 = tolerance := Except.ok.inj htolerance
  have hshift : ((Conversion.planOf policy Settings.standard d 0).grid 2000 1).shift?.getD 0 =
      1500 := by
    have hgrid : ((Conversion.planOf policy Settings.standard d 0).grid 2000 1).shift? =
        if (1 : Rat) < d.pickup ∧ d.pickup < 2000 - 1 then some (2000 - d.pickup) else none := rfl
    rw [hgrid, hpickup]
    norm_num
  refine ⟨hclosed, d, hextract, hpickup, fun bar => ?_⟩
  obtain ⟨hcloses, hopens⟩ := hmarked bar
  rw [hshift, hlines] at hcloses hopens
  refine ⟨hcloses.trans ⟨?_, ?_⟩, hopens.trans ⟨?_, ?_⟩⟩
  · rintro ⟨x, hx, hsign, -, htime⟩
    push_cast at htime
    fin_cases hx <;> cases hsign
    · exact .inl (by exact_mod_cast (by linarith : (bar : Rat) = 2))
    · exact .inr (by exact_mod_cast (by linarith : (bar : Rat) = 3))
  · rintro (rfl | rfl)
    · exact ⟨(4500, { closes := true }), by simp, rfl, by norm_num, by norm_num⟩
    · exact ⟨(6500, { closes := true }), by simp, rfl, by norm_num, by norm_num⟩
  · rintro ⟨x, hx, hsign, htime⟩
    split at htime
    · fin_cases hx <;> cases hsign <;> norm_num at htime
    · fin_cases hx <;> cases hsign
      · exact .inl (by exact_mod_cast (by linarith : (bar : Rat) = 1))
      · exact .inr (by exact_mod_cast (by linarith : (bar : Rat) = 3))
  · rintro (rfl | rfl)
    · exact ⟨(500, { opens := true }), by simp, rfl, by norm_num⟩
    · exact ⟨(4500, { opens := true }), by simp, rfl, by norm_num⟩

end Abc

end PatternScore
