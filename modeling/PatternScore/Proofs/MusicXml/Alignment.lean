import Mathlib
import PatternScore.MusicXml.Extraction
import PatternScore.Proofs.Sequence

/-!
# Where measures begin

The parts of a score are walked through one by one, and no part knows of another. So whether their
measures begin together depends on how long each part takes its first measure to be: a bar, unless
it does not count. Then it lasts as long as what the part writes in it, if that is less than a bar;
a part that writes nothing there takes it to last a bar again.

An item leaves the start of its measure alone and only adds events (`Walk.Grows`); a measure adds
its own length to the start (`measure_spec`). By induction on the measures every one of them begins
at `startOf`, and a note that is written first in it is an event there (`Part.exists_laidOut`).
`Score.extract_aligned_iff` compares two parts of a score: all their measures begin together exactly
if the second ones do.
-/

namespace PatternScore.MusicXml

variable {τ : Type} [Scalar τ] {g : Setting τ} {w w' w'' : Walk τ} {m m' : MeasureWalk τ}

/-! ## Items -/

/-- What the note of an event is recognised by. -/
def markOf (e : Event τ) : NoteMark :=
  .of e.onset e.duration e.pitch

namespace Walk

/-- A walk goes on within a measure. -/
structure Grows (w w' : Walk τ) : Prop where
  /-- The measure still begins at the same time. -/
  start_eq : w'.start = w.start
  /-- No event is lost. -/
  events : w.events <+: w'.events
  /-- A note that is newly recognised is an event. -/
  seen : ∀ mark ∈ w'.seen, mark ∈ w.seen ∨ ∃ e ∈ w'.events, markOf e = mark

/-- A walk that stands still goes on within its measure. -/
lemma Grows.refl (w : Walk τ) : w.Grows w :=
  ⟨rfl, List.prefix_refl _, fun _ h => .inl h⟩

/-- A walk that goes on twice goes on. -/
lemma Grows.trans (h : w.Grows w') (h' : w'.Grows w'') : w.Grows w'' := by
  refine ⟨h'.start_eq.trans h.start_eq, h.events.trans h'.events, fun mark hmark => ?_⟩
  rcases h'.seen mark hmark with hmark | hmark
  · rcases h.seen mark hmark with hmark | ⟨e, he, hmark⟩
    · exact .inl hmark
    · exact .inr ⟨e, h'.events.subset he, hmark⟩
  · exact .inr hmark

/-- Every note that is recognised is an event. -/
def Recognises (w : Walk τ) : Prop :=
  ∀ mark ∈ w.seen, ∃ e ∈ w.events, markOf e = mark

/-- A walk that goes on keeps recognising events only. -/
lemma Grows.recognises (h : w.Grows w') (hw : w.Recognises) : w'.Recognises := by
  intro mark hmark
  rcases h.seen mark hmark with hmark | hmark
  · obtain ⟨e, he, hmark⟩ := hw mark hmark
    exact ⟨e, h.events.subset he, hmark⟩
  · exact hmark

end Walk

/-- A note becomes an event at its onset, unless it is recognised. -/
lemma note_spec {n : Note} (h : note g w m n = .ok (w', m')) :
    ∃ e : Event τ, n.pitch.mapM (·.relative g) = .ok e.pitch ∧
      e.onset = w.start + (if n.isChord then m.onset else m.cursor) ∧ w'.start = w.start ∧
      (markOf e ∈ w.seen ∧ w'.events = w.events ∧ w'.seen = w.seen ∨
        w'.events = w.events ++ [e] ∧ w'.seen = markOf e :: w.seen) := by
  unfold note at h
  obtain ⟨duration, -, h⟩ := exists_of_bind_eq_ok h
  obtain ⟨w₁, m₁, hmoved, hstart, hevents, hseen, honset⟩ : ∃ (w₁ : Walk τ) (m₁ : MeasureWalk τ),
      (if n.isChord then (w, m) else
        ({ w with groups := w.groups + 1 },
          { m with onset := m.cursor, cursor := m.cursor + duration })) = (w₁, m₁) ∧
        w₁.start = w.start ∧ w₁.events = w.events ∧ w₁.seen = w.seen ∧
        m₁.onset = if n.isChord then m.onset else m.cursor := by
    split
    · exact ⟨w, m, rfl, rfl, rfl, rfl, rfl⟩
    · exact ⟨_, _, rfl, rfl, rfl, rfl, rfl⟩
  rw [hmoved] at h
  obtain ⟨pitch, hpitch, h⟩ := exists_of_bind_eq_ok h
  refine ⟨w₁.event g (w₁.start + m₁.onset) duration pitch, hpitch, ?_, ?_⟩
  · rw [← hstart, ← honset]
    rfl
  · rw [← hstart, ← hevents, ← hseen]
    dsimp only at h
    split at h
    · rename_i hold
      rw [Walk.isSeen, Bool.and_eq_true, List.contains_iff_mem] at hold
      cases h
      exact ⟨rfl, .inl ⟨hold.2, rfl, rfl⟩⟩
    · cases h
      exact ⟨rfl, .inr ⟨rfl, rfl⟩⟩

/-- No item moves the start of its measure or loses an event. -/
lemma item_grows {i : Item} (h : item g (w, m) i = .ok (w', m')) : w.Grows w' := by
  cases i with
  | divisions count =>
    obtain ⟨divisions, -, h⟩ := exists_of_bind_eq_ok h
    cases h
    exact ⟨rfl, List.prefix_refl _, fun _ h => .inl h⟩
  | note n =>
    obtain ⟨e, -, -, hstart, ⟨-, hevents, hseen⟩ | ⟨hevents, hseen⟩⟩ := note_spec h
    · exact ⟨hstart, hevents ▸ List.prefix_refl _, fun _ h => .inl (hseen ▸ h)⟩
    · refine ⟨hstart, hevents ▸ List.prefix_append _ _, fun mark hmark => ?_⟩
      rw [hseen] at hmark
      rcases List.mem_cons.mp hmark with rfl | hmark
      · exact .inr ⟨e, by simp [hevents], rfl⟩
      · exact .inl hmark
  | backup duration =>
    obtain ⟨back, -, h⟩ := exists_of_bind_eq_ok h
    cases h
    exact .refl w
  | forward duration =>
    obtain ⟨ahead, -, h⟩ := exists_of_bind_eq_ok h
    cases h
    exact ⟨rfl, List.prefix_append _ _, fun _ h => .inl h⟩
  | opens =>
    cases h
    exact .refl w
  | closes =>
    cases h
    exact .refl w

/-- Nor do several. -/
lemma steps_grow {items : List Item} (h : items.foldlM (step g) (w, m) = .ok (w', m')) :
    w.Grows w' := by
  have hkeeps := foldlM_keeps (P := fun x => w.Grows x.1) (fun i _ x x' hstep hx => ?_) h (.refl w)
  · exact hkeeps
  · obtain ⟨⟨after, m₁⟩, hitem, hstep⟩ := exists_of_bind_eq_ok hstep
    cases hstep
    exact hx.trans (item_grows hitem)

/-! ## The first note of a measure -/

/-- The item takes no time. -/
def Item.IsTimeless : Item → Prop
  | .divisions _ | .opens | .closes => True
  | .note _ | .backup _ | .forward _ => False

/-- The note is written first in a measure. -/
def Measure.BeginsWith (x : Measure) (n : Note) : Prop :=
  ∃ before after, x.items = before ++ .note n :: after ∧ ∀ i ∈ before, i.IsTimeless

/-- Nothing has moved the cursor of a measure yet. -/
def MeasureWalk.IsFresh (m : MeasureWalk τ) : Prop :=
  m.cursor = Scalar.zero ∧ m.onset = Scalar.zero

/-- What takes no time does not move the cursor, nor does it make an event. -/
lemma timeless_steps {items : List Item} (htimeless : ∀ i ∈ items, i.IsTimeless)
    (h : items.foldlM (step g) (w, m) = .ok (w', m')) (hm : m.IsFresh) :
    m'.IsFresh ∧ w'.start = w.start ∧ w'.events = w.events ∧ w'.seen = w.seen := by
  refine foldlM_keeps (P := fun x => x.2.IsFresh ∧ x.1.start = w.start ∧
    x.1.events = w.events ∧ x.1.seen = w.seen) (fun i hi x x' hstep hx => ?_) h ⟨hm, rfl, rfl, rfl⟩
  obtain ⟨⟨after, m₁⟩, hitem, hstep⟩ := exists_of_bind_eq_ok hstep
  cases hstep
  obtain ⟨between, m₀⟩ := x
  have htime := htimeless i hi
  cases i with
  | divisions count =>
    obtain ⟨divisions, -, hitem⟩ := exists_of_bind_eq_ok hitem
    cases hitem
    exact hx
  | note n => exact htime.elim
  | backup duration => exact htime.elim
  | forward duration => exact htime.elim
  | opens =>
    cases hitem
    exact hx
  | closes =>
    cases hitem
    exact hx

/-- A note that is written first is an event at the start of its measure. If it repeats one that is
recognised, its event is that one. -/
lemma exists_first_event {x : Measure} {n : Note} (hn : x.BeginsWith n) (hw : w.Recognises)
    (hm : m.IsFresh) (h : x.items.foldlM (step g) (w, m) = .ok (w', m')) :
    ∃ e ∈ w'.events, n.pitch.mapM (·.relative g) = .ok e.pitch ∧
      thousandths e.onset = thousandths (w.start + Scalar.zero) ∧
      (e.onset = w.start + Scalar.zero ∨ e ∈ w.events) := by
  obtain ⟨before, after, hitems, htimeless⟩ := hn
  rw [hitems, List.foldlM_append] at h
  obtain ⟨⟨w₁, m₁⟩, hbefore, h⟩ := exists_of_bind_eq_ok h
  obtain ⟨⟨hcursor, honset⟩, hstart, hevents, hseen⟩ := timeless_steps htimeless hbefore hm
  rw [List.foldlM_cons] at h
  obtain ⟨⟨w₂, m₂⟩, hstep, hafter⟩ := exists_of_bind_eq_ok h
  obtain ⟨⟨w₃, m₃⟩, hnote, hstep⟩ := exists_of_bind_eq_ok hstep
  cases hstep
  obtain ⟨e, hpitch, hbegins, -, hplaced⟩ := note_spec hnote
  rw [hcursor, honset, ite_self, hstart] at hbegins
  rcases hplaced with ⟨hold, hsame, -⟩ | ⟨hnew, -⟩
  · rw [hseen] at hold
    obtain ⟨f, hf, hmark⟩ := hw _ hold
    have honset : thousandths f.onset = thousandths e.onset := congrArg NoteMark.onset hmark
    have hpitches : f.pitch = e.pitch := congrArg NoteMark.pitch hmark
    refine ⟨f, (steps_grow hafter).events.subset ?_, hpitches ▸ hpitch, ?_, .inr hf⟩
    · rw [hsame, hevents]
      exact hf
    · rw [honset, hbegins]
  · refine ⟨e, (steps_grow hafter).events.subset ?_, hpitch, ?_, .inl hbegins⟩
    · simp [hnew]
    · rw [hbegins]

/-! ## Measures -/

/-- A measure that is not walked through yet. -/
def MeasureWalk.blank : MeasureWalk τ :=
  ⟨Scalar.zero, Scalar.zero, Scalar.zero, false, false⟩

/-- How long a measure lasts in which the cursor comes as far as `furthest`. -/
def Measure.length (g : Setting τ) (index : Nat) (x : Measure) (furthest : τ) : τ :=
  if isUpbeat g index x furthest then furthest else g.barLength

/-- Behind the items of a measure the next one begins. -/
lemma measure_spec {x : Measure} {index : Nat} (h : measure g w (x, index) = .ok w') :
    ∃ (w₁ : Walk τ) (m : MeasureWalk τ), x.items.foldlM (step g) (w, .blank) = .ok (w₁, m) ∧
      w'.events = w₁.events ∧ w'.seen = w₁.seen ∧
      w'.start = w₁.start + x.length g index m.furthest := by
  unfold measure at h
  obtain ⟨⟨w₁, m⟩, hitems, h⟩ := exists_of_bind_eq_ok h
  refine ⟨w₁, m, hitems, ?_⟩
  -- The mark of the measure leaves alone what is said of the walk.
  have hends (w₂ : Walk τ)
      (h : (if isUpbeat g index x m.furthest then
        .ok { w₂ with pickup := m.furthest, start := w₂.start + m.furthest }
        else .ok { w₂ with start := w₂.start + g.barLength }) = Except.ok (ε := Failure) w') :
      w'.events = w₂.events ∧ w'.seen = w₂.seen ∧
        w'.start = w₂.start + x.length g index m.furthest := by
    rw [Measure.length]
    split at h
    · rename_i hupbeat
      cases h
      exact ⟨rfl, rfl, (if_pos hupbeat).symm ▸ rfl⟩
    · rename_i hupbeat
      cases h
      exact ⟨rfl, rfl, (if_neg hupbeat).symm ▸ rfl⟩
  dsimp only at h
  cases hmark : m.mark? with
  | none =>
    rw [hmark] at h
    exact hends w₁ h
  | some mark =>
    rw [hmark] at h
    exact hends { w₁ with markers := w₁.markers.set index mark } h

/-- A measure that counts lasts a bar, and so does every measure behind the first one. -/
lemma Measure.length_eq_barLength {x : Measure} {index : Nat} {furthest : τ}
    (h : index ≠ 0 ∨ x.isImplicit = false) : x.length g index furthest = g.barLength := by
  refine if_neg fun hupbeat => ?_
  simp only [isUpbeat, Bool.and_eq_true, beq_iff_eq] at hupbeat
  rcases h with hindex | hcounts
  · exact hindex hupbeat.1.1.1
  · exact Bool.false_ne_true (hcounts.symm.trans hupbeat.1.1.2)

/-! ## Parts -/

/-- The time at which a measure begins behind a first one that lasts as long as `first`. -/
def startOf (barLength first : τ) : Nat → τ
  | 0 => Scalar.zero
  | 1 => Scalar.zero + first
  | k + 2 => startOf barLength first (k + 1) + barLength

/-- A walk that has not begun. -/
def Walk.initial : Walk τ :=
  { start := Scalar.zero, pickup := Scalar.zero }

namespace Part

/-- The walk through the measures before one. -/
def walkTo (g : Setting τ) (p : Part) (k : Nat) : Except Failure (Walk τ) :=
  (p.measures.zipIdx.take k).foldlM (measure g) .initial

/-- How long a part takes its first measure to be. -/
def firstLength (g : Setting τ) (p : Part) : Except Failure τ :=
  match p.measures with
  | [] => .ok g.barLength
  | x :: _ => do
    let (_, m) ← x.items.foldlM (step g) (.initial, .blank)
    return x.length g 0 m.furthest

variable {p : Part}

/-- The walk to the next measure goes through one measure more. -/
lemma walkTo_succ {k : Nat} {x : Measure} (hx : p.measures[k]? = some x) :
    p.walkTo g (k + 1) = p.walkTo g k >>= fun w => measure g w (x, k) := by
  have htake : p.measures.zipIdx.take (k + 1) = p.measures.zipIdx.take k ++ [(x, k)] := by
    rw [List.take_add_one, List.getElem?_zipIdx, hx]
    simp
  rw [walkTo, htake, List.foldlM_append]
  simp [walkTo]

/-- A part that is walked through is so up to every measure. -/
lemma exists_walkTo (h : p.walk g = .ok w) (k : Nat) :
    ∃ w', p.walkTo g k = .ok w' ∧ (p.measures.zipIdx.drop k).foldlM (measure g) w' = .ok w := by
  rw [walk, ← List.take_append_drop k p.measures.zipIdx, List.foldlM_append] at h
  exact exists_of_bind_eq_ok h

/-- A measure keeps what the walk has recognised. -/
lemma measure_keeps {x : Measure × Nat} (h : measure g w x = .ok w') :
    w.events <+: w'.events ∧ (w.Recognises → w'.Recognises) := by
  obtain ⟨w₁, m, hitems, hevents, hseen, -⟩ := measure_spec h
  have hgrows := steps_grow hitems
  refine ⟨hevents ▸ hgrows.events, fun hw => ?_⟩
  have hafter := hgrows.recognises hw
  rw [Walk.Recognises, hevents, hseen]
  exact hafter

/-- Nor do several measures lose an event. -/
lemma measures_keep {l : List (Measure × Nat)} (h : l.foldlM (measure g) w = .ok w') :
    w.events <+: w'.events ∧ (w.Recognises → w'.Recognises) := by
  refine foldlM_keeps (P := fun x => w.events <+: x.events ∧ (w.Recognises → x.Recognises))
    (fun y _ x x' hmeasure hx => ?_) h ⟨List.prefix_refl _, fun h => h⟩
  obtain ⟨hevents, hrecognises⟩ := measure_keeps hmeasure
  exact ⟨hx.1.trans hevents, hrecognises ∘ hx.2⟩

/-- The first measure takes as long as its items say. -/
lemma firstLength_eq {x : Measure} (hx : p.measures[0]? = some x)
    (hitems : x.items.foldlM (step g) (.initial, .blank) = .ok (w, m)) :
    p.firstLength g = .ok (x.length g 0 m.furthest) := by
  unfold firstLength
  split
  · rename_i hnil
    simp [hnil] at hx
  · rename_i first rest hmeasures
    obtain rfl : first = x := by simpa [hmeasures] using hx
    rw [hitems]
    rfl

/-- A part that is walked through knows how long its first measure is. -/
lemma exists_firstLength (h : p.walk g = .ok w) :
    ∃ first, p.firstLength g = .ok first ∧
      ∀ x, p.measures[0]? = some x → x.isImplicit = false → first = g.barLength := by
  cases hx : p.measures[0]? with
  | none =>
    have hnil : p.measures = [] := by simpa using hx
    refine ⟨g.barLength, ?_, fun x hsome => nomatch hsome⟩
    rw [firstLength, hnil]
  | some x =>
    obtain ⟨w', hw', -⟩ := exists_walkTo h 1
    rw [walkTo_succ hx] at hw'
    obtain ⟨before, hbefore, hmeasure⟩ := exists_of_bind_eq_ok hw'
    cases hbefore
    obtain ⟨w₁, m, hitems, -⟩ := measure_spec hmeasure
    refine ⟨_, firstLength_eq hx hitems, fun y hy hcounts => ?_⟩
    obtain rfl := Option.some.inj hy
    exact Measure.length_eq_barLength (.inr hcounts)

/-- All measures begin where the length of the first one says. -/
lemma start_walkTo {first : τ} (hfirst : p.firstLength g = .ok first) {k : Nat}
    (hk : k ≤ p.measures.length) (h : p.walkTo g k = .ok w) :
    w.start = startOf g.barLength first k := by
  induction k generalizing w with
  | zero =>
    cases h
    rfl
  | succ k ih =>
    have hx : p.measures[k]? = some p.measures[k] := List.getElem?_eq_getElem hk
    rw [walkTo_succ hx] at h
    obtain ⟨before, hbefore, hmeasure⟩ := exists_of_bind_eq_ok h
    obtain ⟨w₁, m, hitems, -, -, hstart⟩ := measure_spec hmeasure
    rw [hstart, (steps_grow hitems).start_eq, ih (Nat.le_of_succ_le hk) hbefore]
    cases k with
    | zero =>
      cases hbefore
      obtain rfl := Except.ok.inj (hfirst.symm.trans (firstLength_eq hx hitems))
      rfl
    | succ k =>
      rw [Measure.length_eq_barLength (.inl k.succ_ne_zero)]
      rfl

/-- A part stands in a voice, its measures behind a first one that lasts as long as `first`. -/
structure LaidOut (g : Setting τ) (p : Part) (first : τ) (events : List (Event τ)) : Prop where
  /-- The part takes its first measure to be so long. -/
  first_eq : p.firstLength g = .ok first
  /-- It lasts a bar if it counts. -/
  full : ∀ x, p.measures[0]? = some x → x.isImplicit = false → first = g.barLength
  /-- The measures begin one after another. -/
  begins : ∀ k ≤ p.measures.length,
    ∃ w, p.walkTo g k = .ok w ∧ w.start = startOf g.barLength first k
  /-- A note that is written first in a measure is an event at its start. If it repeats a note from
  before, whose onset is the same to a thousandth, it is the event of that one. -/
  notes : ∀ k x n, p.measures[k]? = some x → x.BeginsWith n →
    ∃ w, p.walkTo g k = .ok w ∧ ∃ e ∈ events, n.pitch.mapM (·.relative g) = .ok e.pitch ∧
      thousandths e.onset = thousandths (startOf g.barLength first k + Scalar.zero) ∧
      (e.onset = startOf g.barLength first k + Scalar.zero ∨ e ∈ w.events)

/-- A part that is walked through stands in its voice. -/
lemma exists_laidOut (h : p.walk g = .ok w) : ∃ first, p.LaidOut g first w.events := by
  obtain ⟨first, hfirst, hfull⟩ := exists_firstLength h
  refine ⟨first, hfirst, hfull, fun k hk => ?_, fun k x n hx hn => ?_⟩
  · obtain ⟨w', hw', -⟩ := exists_walkTo h k
    exact ⟨w', hw', start_walkTo hfirst hk hw'⟩
  · obtain ⟨hk, -⟩ := List.getElem?_eq_some_iff.mp hx
    obtain ⟨before, hbefore, -⟩ := exists_walkTo h k
    obtain ⟨w', hw', hrest⟩ := exists_walkTo h (k + 1)
    rw [walkTo_succ hx, hbefore] at hw'
    obtain ⟨w₁, m, hitems, hevents, -⟩ := measure_spec hw'
    have hrecognises : before.Recognises :=
      (measures_keep hbefore).2 fun mark hmark => absurd hmark List.not_mem_nil
    obtain ⟨e, he, hpitch, honset, hexact⟩ :=
      exists_first_event hn hrecognises ⟨rfl, rfl⟩ hitems
    rw [start_walkTo hfirst hk.le hbefore] at honset hexact
    have hkept : e ∈ w.events := (measures_keep hrest).1.subset (hevents ▸ he)
    exact ⟨before, hbefore, e, hkept, hpitch, honset, hexact⟩

end Part

/-! ## Scores -/

/-- Measures begin together from the second one on or not at all. -/
lemma startOf_eq_iff {barLength first first' : τ} {count : Nat} (hcount : 1 < count) :
    (∀ k < count, startOf barLength first k = startOf barLength first' k) ↔
      Scalar.zero + first = Scalar.zero + first' := by
  refine ⟨fun h => h 1 hcount, fun h k _ => ?_⟩
  induction k with
  | zero => rfl
  | succ k ih =>
    cases k with
    | zero => exact h
    | succ k => exact congrArg (· + barLength) (ih (by omega))

namespace Score

/-- What the parts of a score are walked through with. -/
def setting (chromatic : Bool) (s : Score) : Except Failure (Setting τ) := do
  let header ← s.header
  let barLength ← header.barLength
  let beat ← header.msPerBeat
  return { beat, barLength, key := header.key, chromatic, voice := 0 }

variable {chromatic : Bool} {s : Score} {doc : Document τ}

/-- The voices of a document are the walks through its parts. -/
lemma exists_walk (h : s.extract chromatic = .ok doc) :
    ∃ g : Setting τ, s.setting chromatic = .ok g ∧ ∀ (i : Nat) (p : Part), s.parts[i]? = some p →
      ∃ w, p.walk { g with voice := i } = .ok w ∧ doc.voices[i]? = some w.events := by
  unfold extract at h
  obtain ⟨header, hheader, h⟩ := exists_of_bind_eq_ok h
  obtain ⟨programs, -, h⟩ := exists_of_bind_eq_ok h
  obtain ⟨barLength, hbar, h⟩ := exists_of_bind_eq_ok h
  obtain ⟨beat, hbeat, h⟩ := exists_of_bind_eq_ok h
  obtain ⟨walks, hwalks, h⟩ := exists_of_bind_eq_ok h
  cases h
  refine ⟨{ beat, barLength, key := header.key, chromatic, voice := 0 }, ?_, fun i p hp => ?_⟩
  · rw [setting, hheader]
    simp [bind, Except.bind, hbar, hbeat, pure, Except.pure]
  · have hall := mapM_eq_ok_iff.mp hwalks
    obtain ⟨hi, rfl⟩ := List.getElem?_eq_some_iff.mp hp
    have hx : i < s.parts.zipIdx.length := by simpa using hi
    have hy : i < walks.length := hall.length_eq ▸ hx
    refine ⟨walks[i], ?_, ?_⟩
    · simpa using hall.get hx hy
    · simp [hy]

/-- The measures of two parts begin together exactly if the parts take their first measures to be
equally long. A measure that counts is taken to last a bar in every part; an implicit one lasts as
long as what the part itself writes in it, and a bar if that is nothing or no less than a bar. -/
theorem extract_aligned_iff (h : s.extract chromatic = .ok doc) {i j : Nat} {p q : Part}
    (hp : s.parts[i]? = some p) (hq : s.parts[j]? = some q) :
    ∃ (g : Setting τ) (first first' : τ) (events events' : List (Event τ)),
      s.setting chromatic = .ok g ∧
      doc.voices[i]? = some events ∧ p.LaidOut { g with voice := i } first events ∧
      doc.voices[j]? = some events' ∧ q.LaidOut { g with voice := j } first' events' ∧
      (1 < min p.measures.length q.measures.length →
        ((∀ k < min p.measures.length q.measures.length,
            startOf g.barLength first k = startOf g.barLength first' k) ↔
          Scalar.zero + first = Scalar.zero + first')) := by
  obtain ⟨g, hg, hwalks⟩ := exists_walk h
  obtain ⟨w, hw, hvoice⟩ := hwalks i p hp
  obtain ⟨w', hw', hvoice'⟩ := hwalks j q hq
  obtain ⟨first, hfirst⟩ := Part.exists_laidOut hw
  obtain ⟨first', hfirst'⟩ := Part.exists_laidOut hw'
  exact ⟨g, first, first', w.events, w'.events, hg, hvoice, hfirst, hvoice', hfirst',
    startOf_eq_iff⟩

/-- Two parts with a note in their second measures. The first measure does not count: the first part
has a quarter note in it, the second part what is given. -/
def duet (items : List Item) : Score where
  parts := [
    { measures := [{ isImplicit := true, items := [sounds 1] }, { items := [sounds 4] }] },
    { measures := [{ isImplicit := true, items }, { items := [sounds 4] }] }]
where
  /-- A note of some quarters. -/
  sounds (count : Int) : Item :=
    .note { duration := .ok count, pitch := some { octave := .ok 4, alter := .ok 0 } }

/-- A rest below the upbeat keeps two parts together. -/
theorem extract_aligned_iff_rest :
    ∃ (s : Score) (doc : Document Rat) (p q : Part) (g : Setting Rat) (first first' : Rat),
      s = duet [.note { duration := .ok 1, pitch := none }] ∧ s.extract false = .ok doc ∧
      s.parts[0]? = some p ∧ s.parts[1]? = some q ∧ s.setting false = .ok g ∧
      p.firstLength { g with voice := 0 } = .ok first ∧
      q.firstLength { g with voice := 1 } = .ok first' ∧
      ∀ k < 2, startOf g.barLength first k = startOf g.barLength first' k := by
  set s := duet [.note { duration := .ok 1, pitch := none }] with hs
  have hsetting : s.setting false = .ok (
      { beat := 500, barLength := 2000, key := {}, chromatic := false, voice := 0 } :
        Setting Rat) := by
    cbv
  have hread : ((s.extract false : Except Failure (Document Rat)) >>=
      fun doc => .ok doc.pickup) = .ok 500 := by
    cbv
  obtain ⟨doc, hdoc, -⟩ := exists_of_bind_eq_ok hread
  obtain ⟨g, first, first', events, events', hg, -, hlaid, -, hlaid', haligned⟩ :=
    extract_aligned_iff hdoc (i := 0) (j := 1) rfl rfl
  obtain rfl := Except.ok.inj (hsetting.symm.trans hg)
  have hfirst : first = 500 := Except.ok.inj (hlaid.first_eq.symm.trans (by cbv))
  have hfirst' : first' = 500 := Except.ok.inj (hlaid'.first_eq.symm.trans (by cbv))
  refine ⟨s, doc, _, _, _, first, first', hs, hdoc, rfl, rfl, hg, hlaid.first_eq,
    hlaid'.first_eq, ?_⟩
  exact (haligned (by decide)).mpr (by rw [hfirst, hfirst'])

/-- A part that writes nothing below the upbeat of another one does not stay with it: the notes of
their second measures begin at different times. -/
theorem not_forall_aligned :
    ¬ ∀ (s : Score) (doc : Document Rat), s.extract false = .ok doc →
      ∀ (i j : Nat) (p q : Part), s.parts[i]? = some p → s.parts[j]? = some q →
        p.measures.map Measure.isImplicit = q.measures.map Measure.isImplicit →
        ∀ (k : Nat) (x y : Measure) (n n' : Note),
          p.measures[k]? = some x → q.measures[k]? = some y → x.BeginsWith n → y.BeginsWith n' →
          ∃ events events', doc.voices[i]? = some events ∧ doc.voices[j]? = some events' ∧
            ∃ e ∈ events, ∃ e' ∈ events', e.onset = e'.onset := by
  have hread : ((duet []).extract false : Except Failure (Document Rat)) >>=
      (fun doc => .ok (doc.voices.map fun events => events.map Event.onset)) =
        .ok [[0, 500], [2000]] := by
    cbv
  obtain ⟨doc, hdoc, honsets⟩ := exists_of_bind_eq_ok hread
  have honsets := Except.ok.inj honsets
  intro h
  have hnote {x : Measure} {n : Note} (hx : x.items = [.note n]) : x.BeginsWith n :=
    ⟨[], [], hx, fun _ hi => absurd hi List.not_mem_nil⟩
  obtain ⟨events, events', hvoice, hvoice', e, he, e', he', heq⟩ :=
    h (duet []) doc hdoc 0 1 _ _ rfl rfl rfl 1 _ _ _ _ rfl rfl (hnote rfl) (hnote rfl)
  have honset {k : Nat} {voice : List (Event Rat)} (h : doc.voices[k]? = some voice) :
      [[(0 : Rat), 500], [2000]][k]? = some (voice.map Event.onset) := by
    rw [← honsets, List.getElem?_map, h]
    rfl
  have hfirst : e.onset ∈ [(0 : Rat), 500] :=
    Option.some.inj (honset hvoice) ▸ List.mem_map_of_mem he
  have hsecond : e'.onset ∈ [(2000 : Rat)] :=
    Option.some.inj (honset hvoice') ▸ List.mem_map_of_mem he'
  rw [← heq, List.mem_singleton] at hsecond
  rw [hsecond] at hfirst
  norm_num at hfirst

end Score

end PatternScore.MusicXml
