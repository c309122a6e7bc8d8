import PatternScore.Proofs.Bar.Filling

/-!
# The rounds in which a voice is cut

Two loops stand inside each other where bars are cut: one closes bars until something begins in the
open one, the other places a piece bar by bar. `advance` and `placeFrom` bound the rounds of both
beforehand. Here the loops are relations between scanners that know no bound: `Opens`, `Places`,
and `Scans` for all events. A derivation is a run that ends, and there is one run at most
(`Cuts.eq`). Over bars that have a length and a tolerance that is not negative, both loops end and
the bounds suffice (`opens_advance`, `places_place`), for pieces of any kind: the tolerance may be
longer than a bar, and a piece may begin before the open bar or end before it begins.

What the rounds keep is shown by induction on them. `segment_stays_within` puts it together: the
bars are no more than the events need, no bar is empty, and all fragments lie within their bar.
-/

namespace PatternScore

variable {τ : Type} [Scalar τ] {g : Grid τ}

/-! ## Runs -/

namespace Scanner

variable {s s₁ s₂ : Scanner τ} {time start stop : τ} {pitch : Option Int} {chord : Option ChordMark}

/-- Bars close until the open one lasts beyond a time. -/
inductive Opens (g : Grid τ) (time : τ) : Scanner τ → Scanner τ → Prop
  /-- The open bar lasts beyond it. -/
  | done {s : Scanner τ} (hlasts : ¬ s.stop g - g.tolerance ≤ time) : Opens g time s s
  /-- The open bar closes. -/
  | close {s s' : Scanner τ} (hends : s.stop g - g.tolerance ≤ time)
      (hrest : Opens g time (s.close g) s') : Opens g time s s'

/-- A piece that ends at `stop` needs no bar behind the open one. -/
def Fits (g : Grid τ) (s : Scanner τ) (stop : τ) : Prop :=
  stop ≤ s.cut g stop ∨ stop ≤ s.stop g + g.tolerance

/-- A piece up to `stop` is placed bar by bar from a time on. -/
inductive Places (g : Grid τ) (stop : τ) (pitch : Option Int) (chord : Option ChordMark) :
    τ → Scanner τ → Scanner τ → Prop
  /-- Nothing is left of it. -/
  | nothing {start : τ} {s : Scanner τ} (hnot : ¬ Scalar.zero < stop - start) :
      Places g stop pitch chord start s s
  /-- What is left ends in the bar that is opened for it. -/
  | last {start : τ} {s opened : Scanner τ} (hlasts : Scalar.zero < stop - start)
      (hopens : Opens g start s opened) (hfits : opened.Fits g stop) :
      Places g stop pitch chord start s (opened.put g start stop pitch chord)
  /-- What is left goes on behind that bar. -/
  | next {start : τ} {s opened s' : Scanner τ} (hlasts : Scalar.zero < stop - start)
      (hopens : Opens g start s opened) (hgoes : ¬ opened.Fits g stop)
      (hrest : Places g stop pitch chord (opened.stop g) (opened.put g start stop pitch chord) s') :
      Places g stop pitch chord start s s'

/-- A scanner can close bars up to a time in one way only. -/
lemma Opens.eq (h₁ : Opens g time s s₁) (h₂ : Opens g time s s₂) : s₁ = s₂ := by
  induction h₁ with
  | done hlasts =>
    cases h₂ with
    | done => rfl
    | close hends => exact absurd hends hlasts
  | close hends _ ih =>
    cases h₂ with
    | done hlasts => exact absurd hends hlasts
    | close _ hrest => exact ih hrest

/-- A piece can be placed in one way only. -/
lemma Places.eq (h₁ : Places g stop pitch chord start s s₁)
    (h₂ : Places g stop pitch chord start s s₂) : s₁ = s₂ := by
  induction h₁ with
  | nothing hnot =>
    cases h₂ with
    | nothing => rfl
    | last hlasts => exact absurd hlasts hnot
    | next hlasts => exact absurd hlasts hnot
  | last hlasts hopens hfits =>
    cases h₂ with
    | nothing hnot => exact absurd hlasts hnot
    | last _ hopens' => rw [hopens.eq hopens']
    | next _ hopens' hgoes =>
      obtain rfl := hopens.eq hopens'
      exact absurd hfits hgoes
  | next hlasts hopens hgoes _ ih =>
    cases h₂ with
    | nothing hnot => exact absurd hlasts hnot
    | last _ hopens' hfits =>
      obtain rfl := hopens.eq hopens'
      exact absurd hfits hgoes
    | next _ hopens' _ hrest =>
      obtain rfl := hopens.eq hopens'
      exact ih hrest

end Scanner

namespace Grid

open Scanner

variable {shift : τ} {state : Scanner τ × τ} {events : List (Event τ)} {s₁ s₂ : Scanner τ}

/-- The silence before an onset is to be filled. -/
def IsGap (g : Grid τ) (expected onset : τ) : Prop :=
  g.fillGaps = true ∧ expected + g.tolerance < onset

/-- The events of a voice are placed one after another, each behind the silence before it. Next to
the scanner stands the time up to which everything is placed. -/
inductive Scans (g : Grid τ) (shift : τ) : Scanner τ × τ → List (Event τ) → Scanner τ → Prop
  /-- No event is left. -/
  | nil {s : Scanner τ} {expected : τ} : Scans g shift (s, expected) [] s
  /-- The silence before an event is placed, then the event. -/
  | gap {s rested placed s' : Scanner τ} {expected : τ} {e : Event τ} {rest : List (Event τ)}
      (hgap : g.IsGap expected (e.onset + shift))
      (hsilence : Places g (expected + (e.onset + shift - expected)) none none expected s rested)
      (hevent : Places g (e.onset + shift + e.duration) e.pitch e.chord (e.onset + shift)
        rested placed)
      (hrest : Scans g shift (placed, Scalar.max expected (e.onset + shift + e.duration)) rest s') :
      Scans g shift (s, expected) (e :: rest) s'
  /-- The event is placed. -/
  | event {s placed s' : Scanner τ} {expected : τ} {e : Event τ} {rest : List (Event τ)}
      (hnot : ¬ g.IsGap expected (e.onset + shift))
      (hevent : Places g (e.onset + shift + e.duration) e.pitch e.chord (e.onset + shift) s placed)
      (hrest : Scans g shift (placed, Scalar.max expected (e.onset + shift + e.duration)) rest s') :
      Scans g shift (s, expected) (e :: rest) s'

/-- The scanner at the start of a voice: the silence before an upbeat is placed. -/
inductive Begins (g : Grid τ) : τ → Scanner τ → Prop
  /-- The voice begins with a bar line. -/
  | plain (hshift : g.shift? = none) : Begins g Scalar.zero {}
  /-- The voice begins with an upbeat. -/
  | upbeat {shift : τ} {s : Scanner τ} (hshift : g.shift? = some shift)
      (hsilence : Places g (Scalar.zero + shift) none none Scalar.zero {} s) : Begins g shift s

/-- The loops in which a voice is cut end with some bars. -/
def Cuts (g : Grid τ) (events : List (Event τ)) (slots : List (Slot τ)) : Prop :=
  ∃ (shift : τ) (s s' : Scanner τ), g.Begins shift s ∧ g.Scans shift (s, shift) events s' ∧
    slots = g.mark (g.markPickup (s'.finish g))

/-- The events of a voice can be placed in one way only. -/
lemma Scans.eq (h₁ : Scans g shift state events s₁) (h₂ : Scans g shift state events s₂) :
    s₁ = s₂ := by
  induction h₁ with
  | nil =>
    cases h₂
    rfl
  | gap hgap hsilence hevent _ ih =>
    cases h₂ with
    | gap _ hsilence' hevent' hrest =>
      obtain rfl := hsilence.eq hsilence'
      obtain rfl := hevent.eq hevent'
      exact ih hrest
    | event hnot => exact absurd hgap hnot
  | event hnot hevent _ ih =>
    cases h₂ with
    | gap hgap => exact absurd hgap hnot
    | event _ hevent' hrest =>
      obtain rfl := hevent.eq hevent'
      exact ih hrest

/-- A voice can begin in one way only, since there is one shift at most. -/
lemma Begins.eq {shift₁ shift₂ : τ} (h₁ : g.Begins shift₁ s₁) (h₂ : g.Begins shift₂ s₂) :
    shift₁ = shift₂ ∧ s₁ = s₂ := by
  cases h₁ with
  | plain hshift =>
    cases h₂ with
    | plain => exact ⟨rfl, rfl⟩
    | upbeat hshift' => cases hshift.symm.trans hshift'
  | upbeat hshift hsilence =>
    cases h₂ with
    | plain hshift' => cases hshift'.symm.trans hshift
    | upbeat hshift' hsilence' =>
      obtain rfl := Option.some.inj (hshift.symm.trans hshift')
      exact ⟨rfl, hsilence.eq hsilence'⟩

/-- The loops end with one list of bars at most. -/
lemma Cuts.eq {slots₁ slots₂ : List (Slot τ)} (h₁ : g.Cuts events slots₁)
    (h₂ : g.Cuts events slots₂) : slots₁ = slots₂ := by
  obtain ⟨_, _, _, hbegins₁, hscans₁, rfl⟩ := h₁
  obtain ⟨_, _, _, hbegins₂, hscans₂, rfl⟩ := h₂
  obtain ⟨rfl, rfl⟩ := hbegins₁.eq hbegins₂
  rw [hscans₁.eq hscans₂]

end Grid

/-! ## What every round keeps -/

namespace Scanner

variable {s s' : Scanner τ} {P : Scanner τ → Prop}

/-- The scanner may close its bar and put anything into it without losing a property. -/
structure Kept (g : Grid τ) (P : Scanner τ → Prop) : Prop where
  /-- Closing the open bar. -/
  close : ∀ s, P s → P (s.close g)
  /-- Putting a piece into it. -/
  put : ∀ s start stop pitch chord, P s → P (s.put g start stop pitch chord)

/-- Closing bars keeps what closing one does. -/
lemma Opens.keeps (hP : Kept g P) {time : τ} (h : Opens g time s s') (hs : P s) : P s' := by
  induction h with
  | done => exact hs
  | close _ _ ih => exact ih (hP.close _ hs)

/-- Placing a piece closes bars and puts parts into them, and so it keeps what both keep. -/
lemma Places.keeps (hP : Kept g P) {start stop : τ} {pitch : Option Int} {chord : Option ChordMark}
    (h : Places g stop pitch chord start s s') (hs : P s) : P s' := by
  induction h with
  | nothing => exact hs
  | last _ hopens => exact hP.put _ _ _ _ _ (hopens.keeps hP hs)
  | next _ hopens _ _ ih => exact ih (hP.put _ _ _ _ _ (hopens.keeps hP hs))

end Scanner

namespace Grid

open Scanner

variable {shift : τ} {s' : Scanner τ} {P : Scanner τ → Prop}

/-- What a new scanner has is not lost by the silence before an upbeat. -/
lemma Begins.keeps (hP : Kept g P) (h : g.Begins shift s') (hstart : P {}) : P s' := by
  cases h with
  | plain => exact hstart
  | upbeat _ hsilence => exact hsilence.keeps hP hstart

/-- Placing events keeps what placing a piece does, be it an event or silence. -/
lemma Scans.keeps (hP : Kept g P) {state : Scanner τ × τ} {events : List (Event τ)}
    (h : g.Scans shift state events s') (hs : P state.1) : P s' := by
  induction h with
  | nil => exact hs
  | gap _ hsilence hevent _ ih => exact ih (hevent.keeps hP (hsilence.keeps hP hs))
  | event _ hevent _ ih => exact ih (hevent.keeps hP hs)

end Grid

/-! ## The loops end -/

namespace Scanner

variable {g : Grid Rat} {s s' : Scanner Rat} {time start stop : Rat} {pitch : Option Int}
  {chord : Option ChordMark}

/-- The bar that is opened for a time lasts beyond it. -/
lemma Opens.lt_stop (h : Opens g time s s') : time < s'.stop g - g.tolerance := by
  induction h with
  | done hlasts => exact not_le.mp hlasts
  | close _ _ ih => exact ih

/-- The loop that closes bars ends within its bound if so many bars reach beyond the time. -/
lemma opens_advance {bars : Nat}
    (hbars : time + g.tolerance < (s.number + bars + 1) * g.length) :
    Opens g time s (s.advance g time bars) := by
  induction bars generalizing s with
  | zero =>
    refine .done ?_
    rw [stop_eq, not_le]
    push_cast at hbars
    linarith
  | succ bars ih =>
    unfold Scanner.advance
    split
    · rename_i hends
      refine .close hends (ih ?_)
      have hnumber : (s.close g).number = s.number + 1 := rfl
      rw [hnumber]
      push_cast at hbars ⊢
      linarith
    · rename_i hlasts
      exact .done hlasts

/-- A time lies well before the last of the bars that are counted for it. -/
lemma lt_barsUpTo (hlength : 0 < g.length) (time : Rat) :
    time + g.tolerance + g.length < barsUpTo g time * g.length := by
  have hfloor := Nat.lt_floor_add_one ((time + g.tolerance) / g.length)
  have hcount : (barsUpTo g time : Rat) = (⌊(time + g.tolerance) / g.length⌋₊ : Rat) + 2 := by
    have hnat : barsUpTo g time = ⌊(time + g.tolerance) / g.length⌋₊ + 2 := rfl
    rw [hnat]
    push_cast
    rfl
  rw [div_lt_iff₀ hlength] at hfloor
  rw [hcount]
  linarith

/-- The inner loop ends. -/
lemma opens_barsUpTo (hlength : 0 < g.length) (s : Scanner Rat) (time : Rat) :
    Opens g time s (s.advance g time (barsUpTo g time)) := by
  have hbars := lt_barsUpTo hlength time
  have hnumber : (0 : Rat) ≤ s.number * g.length := by positivity
  exact opens_advance (by linarith)

/-- A round of the outer loop, if the loop ends behind it. -/
lemma places_round (hlength : 0 < g.length) {bars : Nat} {opened : Scanner Rat}
    (hopens : Opens g start s opened)
    (hrest : ¬ opened.Fits g stop →
      Places g stop pitch chord (opened.stop g) (opened.put g start stop pitch chord)
        (placeFrom g stop pitch chord bars (opened.stop g)
          (opened.put g start stop pitch chord))) :
    Places g stop pitch chord start s (placeFrom g stop pitch chord (bars + 1) start s) := by
  have hopened : s.advance g start (barsUpTo g start) = opened :=
    (opens_barsUpTo hlength s start).eq hopens
  rw [Scanner.placeFrom, hopened]
  dsimp only
  by_cases hlasts : Scalar.zero < stop - start
  · rw [if_pos hlasts]
    split
    · rename_i hfits
      exact .last hlasts hopens hfits
    · rename_i hgoes
      exact .next hlasts hopens hgoes (hrest hgoes)
  · rw [if_neg hlasts]
    exact .nothing hlasts

/-- The outer loop ends: every round opens a bar behind the one before. -/
lemma places_placeFrom (hlength : 0 < g.length) (htolerance : 0 ≤ g.tolerance) {bars : Nat}
    {opened : Scanner Rat} (hopens : Opens g start s opened)
    (hbars : stop ≤ (opened.number + bars + 1) * g.length + g.tolerance) :
    Places g stop pitch chord start s (placeFrom g stop pitch chord (bars + 1) start s) := by
  induction bars generalizing start s opened with
  | zero =>
    refine places_round hlength hopens fun hgoes => absurd ?_ hgoes
    refine .inr ?_
    rw [stop_eq]
    simpa using hbars
  | succ bars ih =>
    refine places_round hlength hopens fun _ => ?_
    have hopens' := opens_barsUpTo hlength (opened.put g start stop pitch chord) (opened.stop g)
    refine ih hopens' ?_
    set next := (opened.put g start stop pitch chord).advance g (opened.stop g)
      (barsUpTo g (opened.stop g))
    have hbehind := hopens'.lt_stop
    rw [stop_eq, stop_eq] at hbehind
    have hcount : (opened.number : Rat) + 1 < next.number + 1 :=
      lt_of_mul_lt_mul_right (by linarith) hlength.le
    have hnext : (opened.number : Rat) + 1 ≤ next.number := by
      have hlt : opened.number + 1 < next.number + 1 := by exact_mod_cast hcount
      exact_mod_cast Nat.lt_succ_iff.mp hlt
    have hlater : ((opened.number : Rat) + 1) * g.length ≤ next.number * g.length :=
      mul_le_mul_of_nonneg_right hnext hlength.le
    push_cast at hbars
    linarith

/-- Placing a piece ends. -/
lemma places_place (hlength : 0 < g.length) (htolerance : 0 ≤ g.tolerance) (s : Scanner Rat)
    (onset duration : Rat) (pitch : Option Int) (chord : Option ChordMark) :
    Places g (onset + duration) pitch chord onset s (s.place g onset duration pitch chord) := by
  obtain ⟨bars, hcount⟩ : ∃ bars, barsUpTo g (onset + duration) = bars + 1 := ⟨_, rfl⟩
  have hopens := opens_barsUpTo hlength s onset
  have hbars := lt_barsUpTo hlength (onset + duration)
  have hplace : s.place g onset duration pitch chord =
      placeFrom g (onset + duration) pitch chord (bars + 1) onset s := by
    rw [← hcount]
    rfl
  rw [hplace]
  refine places_placeFrom hlength htolerance hopens ?_
  have hnumber : (0 : Rat) ≤ (s.advance g onset (barsUpTo g onset)).number * g.length := by
    positivity
  rw [hcount] at hbars
  push_cast at hbars
  linarith

end Scanner

namespace Grid

open Scanner

variable {g : Grid Rat}

/-- Placing all events ends. -/
lemma scans_foldl (hlength : 0 < g.length) (htolerance : 0 ≤ g.tolerance) (shift : Rat)
    (events : List (Event Rat)) (s : Scanner Rat) (expected : Rat) :
    g.Scans shift (s, expected) events (events.foldl (g.placeEvent shift) (s, expected)).1 := by
  induction events generalizing s expected with
  | nil => exact .nil
  | cons e rest ih =>
    rw [List.foldl_cons, Grid.placeEvent]
    split
    · rename_i hgap
      have hgap' : g.IsGap expected (e.onset + shift) := by simpa [IsGap] using hgap
      exact .gap hgap' (places_place hlength htolerance _ _ _ _ _)
        (places_place hlength htolerance _ _ _ _ _) (ih _ _)
    · rename_i hgap
      have hnot : ¬ g.IsGap expected (e.onset + shift) := by simpa [IsGap] using hgap
      exact .event hnot (places_place hlength htolerance _ _ _ _ _) (ih _ _)

/-- Both loops end, for every voice, and the bars are those that are cut. -/
lemma cuts_cut (hlength : 0 < g.length) (htolerance : 0 ≤ g.tolerance) (events : List (Event Rat)) :
    g.Cuts events (g.cut events) := by
  unfold Grid.cut
  cases hshift : g.shift? with
  | none => exact ⟨0, {}, _, .plain hshift, scans_foldl hlength htolerance _ _ _ _, rfl⟩
  | some shift =>
    exact ⟨shift, _, _, .upbeat hshift (places_place hlength htolerance _ _ _ _ _),
      scans_foldl hlength htolerance _ _ _ _, rfl⟩

end Grid

/-! ## How many bars there are -/

namespace Scanner

variable {g : Grid Rat} {s s' : Scanner Rat} {limit time start stop : Rat} {pitch : Option Int}
  {chord : Option ChordMark}

/-- The bars that are opened for what lies up to a time. -/
structure Reaches (g : Grid Rat) (limit : Rat) (s : Scanner Rat) : Prop where
  /-- The open bar begins up to it, the tolerance included. -/
  start_le : s.number * g.length ≤ limit + g.tolerance
  /-- A bar that holds something begins up to it. -/
  start_le_of_ne : s.current ≠ [] → s.number * g.length ≤ limit

/-- No bar closes for a time unless it ends up to it, the tolerance included, so the next one begins
up to it. -/
lemma Opens.reaches (h : Opens g time s s') (htime : time ≤ limit) (hs : s.Reaches g limit) :
    s'.Reaches g limit := by
  induction h with
  | done => exact hs
  | @close s s' hends _ ih =>
    refine ih ⟨?_, fun hne => absurd rfl hne⟩
    rw [stop_eq] at hends
    have hnumber : (s.close g).number = s.number + 1 := rfl
    rw [hnumber]
    push_cast
    linarith

/-- What lies in the open bar of a piece becomes a fragment of it, unless nothing does. -/
lemma put_cases (htolerance : 0 ≤ g.tolerance) (s : Scanner Rat) (start stop : Rat)
    (pitch : Option Int) (chord : Option ChordMark) :
    (∃ f : Fragment Rat, f.offset = max start (s.start g) - s.start g ∧
        f.stop = min stop (s.stop g) - s.start g ∧ f.offset < f.stop ∧
        s.put g start stop pitch chord = { s with current := f :: s.current }) ∨
      min stop (s.stop g) ≤ max start (s.start g) ∧ s.put g start stop pitch chord = s := by
  unfold Scanner.put
  rw [cut_eq htolerance, ← stop_eq, Scalar.rat_max]
  dsimp only
  split
  · rename_i hlasts
    refine .inl ⟨_, rfl, ?_, ?_, rfl⟩
    · rw [Fragment.stop]
      ring
    · exact lt_add_of_pos_right _ (sub_pos.mpr hlasts)
  · rename_i hnot
    exact .inr ⟨not_lt.mp hnot, rfl⟩

/-- A part is put into a bar only if the piece reaches into it. -/
lemma Reaches.put (hs : s.Reaches g limit) (htolerance : 0 ≤ g.tolerance) (hstop : stop ≤ limit) :
    (s.put g start stop pitch chord).Reaches g limit := by
  rcases put_cases htolerance s start stop pitch chord with
    ⟨f, hoffset, hend, hlasts, hput⟩ | ⟨-, hput⟩
  · rw [hput]
    refine ⟨hs.start_le, fun _ => ?_⟩
    have hstart : s.start g ≤ max start (s.start g) := le_max_right _ _
    have hcut : min stop (s.stop g) ≤ stop := min_le_left _ _
    change s.start g ≤ limit
    linarith
  · rw [hput]
    exact hs

/-- A piece that goes on lasts beyond the open bar. -/
lemma lt_of_not_fits (h : ¬ s.Fits g stop) : s.stop g + g.tolerance < stop :=
  not_le.mp fun hle => h (.inr hle)

/-- A piece that ends up to a time opens no bar that begins later. -/
lemma Places.reaches (h : Places g stop pitch chord start s s') (htolerance : 0 ≤ g.tolerance)
    (hstart : start ≤ limit) (hstop : stop ≤ limit) (hs : s.Reaches g limit) :
    s'.Reaches g limit := by
  induction h with
  | nothing => exact hs
  | last _ hopens => exact (hopens.reaches hstart hs).put htolerance hstop
  | next _ hopens hgoes _ ih =>
    have hnext := lt_of_not_fits hgoes
    exact ih (by linarith) ((hopens.reaches hstart hs).put htolerance hstop)

/-- The last bar begins up to the time, the tolerance included. -/
lemma Reaches.length_finish (hs : s.Reaches g limit) (hlength : 0 < g.length)
    (hclosed : s.closed.length = s.number) :
    ((s.finish g).length - 1) * g.length ≤ limit + g.tolerance := by
  have hstart := hs.start_le
  unfold Scanner.finish
  split
  · rw [List.length_reverse, hclosed]
    linarith
  · rename_i first rest _
    dsimp only
    split
    · simpa [Scanner.close, hclosed] using hstart
    · simpa [Scanner.close, hclosed] using hstart

end Scanner

namespace Grid

open Scanner

variable {g : Grid Rat} {shift limit : Rat}

/-- The time up to which some events reach that are moved by `shift`; zero and the shift count as
well. -/
def horizon (shift : Rat) : List (Event Rat) → Rat
  | [] => max 0 shift
  | e :: rest => max (max (e.onset + shift) (e.stop + shift)) (horizon shift rest)

/-- The horizon is behind zero, the shift and every onset and end of the moved events. -/
lemma le_horizon (shift : Rat) (events : List (Event Rat)) :
    0 ≤ horizon shift events ∧ shift ≤ horizon shift events ∧
      ∀ e ∈ events, e.onset + shift ≤ horizon shift events ∧
        e.stop + shift ≤ horizon shift events := by
  induction events with
  | nil => exact ⟨le_max_left _ _, le_max_right _ _, fun _ h => absurd h List.not_mem_nil⟩
  | cons e rest ih =>
    obtain ⟨hzero, hshift, hrest⟩ := ih
    have hle : horizon shift rest ≤ horizon shift (e :: rest) := le_max_right _ _
    obtain ⟨honset, hstop⟩ := max_le_iff.mp (le_max_left _ (horizon shift rest) :
      max (e.onset + shift) (e.stop + shift) ≤ horizon shift (e :: rest))
    refine ⟨hzero.trans hle, hshift.trans hle, List.forall_mem_cons.mpr ⟨⟨honset, hstop⟩, ?_⟩⟩
    exact fun f hf => ⟨(hrest f hf).1.trans hle, (hrest f hf).2.trans hle⟩

/-- Events that end up to a time open no bar that begins later. -/
lemma Scans.reaches {state : Scanner Rat × Rat} {events : List (Event Rat)} {s' : Scanner Rat}
    (h : g.Scans shift state events s') (htolerance : 0 ≤ g.tolerance) (hexpected : state.2 ≤ limit)
    (hevents : ∀ e ∈ events, e.onset + shift ≤ limit ∧ e.stop + shift ≤ limit)
    (hs : state.1.Reaches g limit) : s'.Reaches g limit := by
  have hmoved (e : Event Rat) : e.onset + shift + e.duration = e.stop + shift :=
    add_right_comm _ _ _
  induction h with
  | nil => exact hs
  | gap _ hsilence hevent _ ih =>
    obtain ⟨⟨honset, hstop⟩, hrest⟩ := List.forall_mem_cons.mp hevents
    rw [← hmoved] at hstop
    refine ih ?_ hrest (hevent.reaches htolerance honset hstop
      (hsilence.reaches htolerance hexpected (by linarith) hs))
    rw [Scalar.rat_max]
    exact max_le hexpected hstop
  | event _ hevent _ ih =>
    obtain ⟨⟨honset, hstop⟩, hrest⟩ := List.forall_mem_cons.mp hevents
    rw [← hmoved] at hstop
    refine ih ?_ hrest (hevent.reaches htolerance honset hstop hs)
    rw [Scalar.rat_max]
    exact max_le hexpected hstop

/-- Events are moved by the shift of the grid, or not at all. -/
lemma Begins.shift_eq {s : Scanner Rat} (h : g.Begins shift s) : shift = g.shift?.getD 0 := by
  cases h with
  | plain hshift =>
    rw [hshift]
    rfl
  | upbeat hshift =>
    rw [hshift]
    rfl

/-- The silence before an upbeat ends with the shift. -/
lemma Begins.reaches {s : Scanner Rat} (h : g.Begins shift s) (htolerance : 0 ≤ g.tolerance)
    (hzero : 0 ≤ limit) (hshift : shift ≤ limit) : s.Reaches g limit := by
  have hstart : ({} : Scanner Rat).Reaches g limit := by
    refine ⟨?_, fun hne => absurd rfl hne⟩
    simpa using add_nonneg hzero htolerance
  cases h with
  | plain => exact hstart
  | upbeat _ hsilence =>
    have hstop : Scalar.zero + shift ≤ limit := (zero_add shift).le.trans hshift
    exact hsilence.reaches htolerance hzero hstop hstart

end Grid

/-! ## Upbeats -/

/-- What is moved to the end of its bar stays in it, and so does the rest before it. -/
lemma Slot.within_padPickup {g : Grid Rat} (htolerance : 0 ≤ g.tolerance) {s : Slot Rat}
    (h : ∀ f ∈ s.fragments, f.Within g.length) :
    ∀ f ∈ (s.padPickup g).fragments, f.Within g.length := by
  unfold Slot.padPickup
  split
  · exact h
  · rename_i first rest hfragments
    dsimp only
    split
    · exact h
    · rename_i hmoves
      have hmissing : g.tolerance < g.length - Scanner.covered first rest :=
        not_le.mp fun hle => hmoves (.inr hle)
      have hcovered {f : Fragment Rat} (hf : f ∈ s.fragments) :
          f.stop ≤ Scanner.covered first rest := Scanner.stop_le_covered (hfragments ▸ hf)
      have hfirst : first ∈ s.fragments := hfragments ▸ List.mem_cons_self
      have hnonneg : 0 ≤ Scanner.covered first rest :=
        (add_nonneg (h first hfirst).offset_nonneg (h first hfirst).duration_pos.le).trans
          (hcovered hfirst)
      refine List.forall_mem_cons.mpr ⟨⟨le_rfl, htolerance.trans_lt hmissing, ?_⟩, ?_⟩
      · exact (zero_add _).le.trans (sub_le_self _ hnonneg)
      · refine List.forall_mem_map.mpr fun f hf => ⟨?_, (h f hf).duration_pos, ?_⟩
        · exact add_nonneg (h f hf).offset_nonneg (htolerance.trans hmissing.le)
        · have hstop := hcovered hf
          rw [Fragment.stop] at hstop ⊢
          dsimp only
          linarith

/-- A part is put into the open bar and into no closed one. -/
lemma Scanner.closed_put (s : Scanner τ) (start stop : τ) (pitch : Option Int)
    (chord : Option ChordMark) : (s.put g start stop pitch chord).closed = s.closed := by
  unfold Scanner.put
  dsimp only
  split
  · rfl
  · rfl

/-- No bar is an upbeat before one is made. -/
lemma Scanner.pickup_finish {s : Scanner τ} (h : ∀ c ∈ s.closed, c.pickup = false) :
    ∀ c ∈ s.finish g, c.pickup = false := by
  have hclose (current : List (Fragment τ)) :
      ∀ c ∈ (({ s with current } : Scanner τ).close g).closed.reverse, c.pickup = false := by
    intro c hc
    rcases List.mem_cons.mp (List.mem_reverse.mp hc) with rfl | hc
    · rfl
    · exact h c hc
  unfold Scanner.finish
  split
  · exact fun c hc => h c (List.mem_reverse.mp hc)
  · dsimp only
    split
    · exact hclose _
    · exact hclose s.current

namespace Grid

/-- Another first bar may be put in place of one, and no other. -/
lemma markPickup_cons (first : Slot τ) (rest : List (Slot τ)) :
    ∃ first', g.markPickup (first :: rest) = first' :: rest := by
  rw [markPickup]
  split
  · exact ⟨_, rfl⟩
  · split
    · exact ⟨_, rfl⟩
    · exact ⟨_, rfl⟩

/-- Marking an upbeat adds no bar. -/
lemma length_markPickup (slots : List (Slot τ)) :
    (g.markPickup slots).length = slots.length := by
  cases slots with
  | nil => rfl
  | cons first rest =>
    obtain ⟨first', heq⟩ := markPickup_cons (g := g) first rest
    rw [heq]
    rfl

/-- Only the first bar is made an upbeat. -/
lemma pickup_markPickup {slots : List (Slot τ)} (h : ∀ s ∈ slots, s.pickup = false) (i : Nat)
    (hi : i < (g.markPickup slots).length) (hpickup : (g.markPickup slots)[i].pickup = true) :
    i = 0 := by
  cases slots with
  | nil => exact absurd hi (Nat.not_lt_zero _)
  | cons first rest =>
    cases i with
    | zero => rfl
    | succ i =>
      obtain ⟨first', heq⟩ := markPickup_cons (g := g) first rest
      obtain ⟨-, hrest⟩ := List.forall_mem_cons.mp h
      simp only [heq, List.getElem_cons_succ] at hpickup
      cases hpickup.symm.trans (hrest _ (List.getElem_mem _))

/-- Fragments stay within their bars when the first one is made an upbeat. -/
lemma within_markPickup {g : Grid Rat} (htolerance : 0 ≤ g.tolerance) {slots : List (Slot Rat)}
    (h : ∀ s ∈ slots, ∀ f ∈ s.fragments, f.Within g.length) :
    ∀ s ∈ g.markPickup slots, ∀ f ∈ s.fragments, f.Within g.length := by
  cases slots with
  | nil => exact h
  | cons first rest =>
    obtain ⟨hfirst, hrest⟩ := List.forall_mem_cons.mp h
    rw [markPickup]
    split
    · exact List.forall_mem_cons.mpr ⟨hfirst, hrest⟩
    · split
      · exact h
      · exact List.forall_mem_cons.mpr ⟨Slot.within_padPickup htolerance hfirst, hrest⟩

/-! ## All bars -/

/-- What the scanner holds lies within bars, and no closed bar is an upbeat. -/
lemma kept_within {g : Grid Rat} (hlength : 0 < g.length) (htolerance : 0 ≤ g.tolerance) :
    Scanner.Kept g fun s =>
      s.Keeps (Fragment.Within g.length) ∧ ∀ c ∈ s.closed, c.pickup = false where
  close _ h := ⟨h.1.close (makes_within hlength htolerance), List.forall_mem_cons.mpr ⟨rfl, h.2⟩⟩
  put s start stop pitch chord h := by
    refine ⟨h.1.put (makes_within hlength htolerance) start stop pitch chord, ?_⟩
    rw [Scanner.closed_put]
    exact h.2

/-- The loops end, whatever the events are, and with one list of bars. These are no more than reach
up to the last onset or end, the tolerance included; they are numbered from zero, none is empty, all
fragments last and lie within their bar, and only the first bar may be an upbeat. -/
theorem segment_stays_within {g : Grid Rat} (hlength : 0 < g.length) (htolerance : 0 ≤ g.tolerance)
    (events : List (Event Rat)) :
    ∃ slots, g.segment events = .ok slots ∧
      (∀ slots', g.Cuts events slots' ↔ slots' = slots) ∧
      ((slots.length : Rat) - 1) * g.length ≤
        horizon (g.shift?.getD 0) events + g.tolerance ∧
      ∀ (i : Nat) (h : i < slots.length), slots[i].index = i ∧ slots[i].fragments ≠ [] ∧
        (∀ f ∈ slots[i].fragments, f.Within g.length) ∧ (slots[i].pickup = true → i = 0) := by
  have hcuts := cuts_cut hlength htolerance events
  have hfilled := filled_cut (makes_within hlength htolerance) events
  obtain ⟨shift, s, s', hbegins, hscans, hcut⟩ := cuts_cut hlength htolerance events
  have hkept := kept_within hlength htolerance
  obtain ⟨hkeeps, hplain⟩ := hscans.keeps hkept
    (hbegins.keeps hkept ⟨Scanner.keeps_start, fun _ h => absurd h List.not_mem_nil⟩)
  have hpickup := Scanner.pickup_finish (g := g) hplain
  have hfinished := hkeeps.finish (makes_within hlength htolerance)
  have hwithin := within_markPickup htolerance fun s hs => hfinished.all s hs (hpickup s hs)
  refine ⟨_, segment_eq_cut hlength htolerance events, ?_⟩
  rw [hcut] at hcuts hfilled ⊢
  refine ⟨fun slots' => ⟨fun h => h.eq hcuts, fun h => h ▸ hcuts⟩, ?_, fun i hi =>
    ⟨hfilled.index_eq i hi, hfilled.fragments_ne_nil _ (List.getElem_mem hi), ?_, ?_⟩⟩
  · obtain ⟨hzero, hshift, hevents⟩ := le_horizon shift events
    have hreaches := hscans.reaches htolerance hshift hevents
      (hbegins.reaches htolerance hzero hshift)
    rw [mark, List.length_map, length_markPickup, ← hbegins.shift_eq]
    exact hreaches.length_finish hlength hkeeps.number_eq
  · simp only [mark, List.getElem_map]
    exact hwithin _ (List.getElem_mem _)
  · simp only [mark, List.getElem_map]
    exact pickup_markPickup hpickup i _

/-- Over a tolerance longer than a bar, a note is held that covers a shorter one and one that lasts
less than no time: five bars suffice. -/
theorem segment_stays_within_held :
    let g : Grid Rat := { length := 2000, tolerance := 3000, pickup := 0 }
    let events : List (Event Rat) :=
      [{ onset := 0, duration := 6500, pitch := some 0 },
        { onset := 500, duration := 500, pitch := some 4 },
        { onset := 4000, duration := -1000, pitch := some 2 }]
    0 < g.length ∧ 0 ≤ g.tolerance ∧
      ∃ slots, g.segment events = .ok slots ∧ g.Cuts events slots ∧ slots.length ≤ 5 ∧
        ∀ s ∈ slots, s.fragments ≠ [] ∧ ∀ f ∈ s.fragments, f.Within 2000 := by
  intro g events
  have hlength : 0 < g.length := by norm_num [g]
  have htolerance : 0 ≤ g.tolerance := by norm_num [g]
  obtain ⟨slots, hslots, hcuts, hcount, hbars⟩ := segment_stays_within hlength htolerance events
  refine ⟨hlength, htolerance, slots, hslots, (hcuts slots).mpr rfl, ?_, fun s hs => ?_⟩
  · have hshift : g.shift? = none := if_neg (by norm_num [g])
    have hhorizon : horizon (g.shift?.getD 0) events = 6500 := by
      norm_num [hshift, horizon, events, Event.stop]
    have hfew : (slots.length : Rat) < 6 := by
      rw [hhorizon] at hcount
      norm_num [g] at hcount
      linarith
    have hlt : slots.length < 6 := by exact_mod_cast hfew
    omega
  · obtain ⟨i, hi, rfl⟩ := List.getElem_of_mem hs
    exact ⟨(hbars i hi).2.1, (hbars i hi).2.2.1⟩

end Grid

end PatternScore
