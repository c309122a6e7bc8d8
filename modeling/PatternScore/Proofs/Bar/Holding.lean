import PatternScore.Proofs.Bar.Laying

/-!
# Holding notes through the gaps of a line

A note that was cut short is held again as far as a note up to it reaches, but not beyond the next
one. So the notes of the line that comes out depend on its notes alone (`sustain`), and of its
silence there remains what lies behind the reach of all notes before it. `HeldAs` says so of the
last span that is done and of what follows it, and `exists_heldAs` is the induction over the line.
-/

namespace PatternScore.Span

variable {s last : Span} {more out : List Span} {sounding time : Int}

/-- A span that lasts up to a time. -/
def lastingTo (s : Span) (stop : Int) : Span :=
  { s with units := stop - s.start }

/-- A span that lasts up to another time begins when it did. -/
@[simp]
lemma lastingTo_start (s : Span) (stop : Int) : (s.lastingTo stop).start = s.start := rfl

/-- It stops at that time. -/
@[simp]
lemma lastingTo_stop (s : Span) (stop : Int) : (s.lastingTo stop).stop = stop := by
  simp only [lastingTo, Span.stop]
  omega

/-- It stays a note or a rest. -/
@[simp]
lemma lastingTo_isRest (s : Span) (stop : Int) : (s.lastingTo stop).isRest = s.isRest := rfl

/-- How far it was written to reach is not changed. -/
@[simp]
lemma lastingTo_reach (s : Span) (stop : Int) : (s.lastingTo stop).reach = s.reach := rfl

/-- Of several times the last one counts. -/
@[simp]
lemma lastingTo_lastingTo (s : Span) (stop stop' : Int) :
    (s.lastingTo stop).lastingTo stop' = s.lastingTo stop' := rfl

/-- Stretching a span to a time behind its end makes it last up to there. -/
lemma stretch_eq {stop : Int} (h : s.stop ≤ stop) : s.stretch stop = s.lastingTo stop := by
  unfold stretch
  split
  · rfl
  · have heq : s.units = stop - s.start := by
      unfold Span.stop at *
      omega
    rw [lastingTo, ← heq]

/-- Notes that are held as far as a note up to them reaches, up to the next one. Notes before them
reach as far as `sounding`. -/
def sustain : Int → List Span → List Span
  | _, [] => []
  | sounding, n :: rest =>
    let sounding := max sounding n.reach
    n.lastingTo ((rest.head?.map fun m => min m.start sounding).getD sounding) ::
      sustain sounding rest

/-- A line from its last span that is done, when the notes up to it reach as far as `sounding`. -/
structure Holding (last : Span) (sounding : Int) (more : List Span) : Prop where
  /-- The spans follow each other. -/
  ordered : (last :: more).Pairwise fun s t => s.stop ≤ t.start
  /-- The spans last. -/
  lasting : ∀ s ∈ last :: more, s.start < s.stop
  /-- Notes sound no longer than they reach. -/
  stop_le : ∀ n ∈ more, n.isRest = false → n.stop ≤ n.reach
  /-- A note reaches as far as the notes do. -/
  of_note : last.isRest = false → last.stop ≤ sounding ∧ last.reach ≤ sounding
  /-- Behind a rest nothing sounds on. -/
  of_rest : last.isRest = true → sounding ≤ last.start

/-- At an instant no note sounds on: neither one from before nor one of some notes. -/
def Quiet (sounding : Int) (notes : List Span) (time : Int) : Prop :=
  sounding ≤ time ∧ ∀ n ∈ notes, n.start ≤ time → n.reach ≤ time

/-- How far notes reach when one more span is done. -/
def reaching (sounding : Int) (s : Span) : Int :=
  if s.isRest then sounding else max sounding s.reach

/-- A rest does not change how far notes reach. -/
lemma reaching_of_isRest (h : s.isRest = true) : reaching sounding s = sounding :=
  if_pos h

/-- A note reaches as far as it was written to, if that is further. -/
lemma reaching_of_note (h : s.isRest = false) : reaching sounding s = max sounding s.reach :=
  if_neg (by simp [h])

/-- Doing a span that begins by an instant does not change whether the instant is quiet. -/
lemma quiet_reaching (h : s.start ≤ time) :
    Quiet (reaching sounding s) (notes more) time ↔ Quiet sounding (notes (s :: more)) time := by
  cases hs : s.isRest with
  | true => rw [reaching_of_isRest hs, notes_cons_of_isRest hs]
  | false =>
    rw [reaching_of_note hs, notes_cons_of_note hs, Quiet, Quiet, max_le_iff,
      List.forall_mem_cons]
    tauto

/-- Notes are sustained alike whether the first of them is counted before or not. -/
lemma sustain_reaching :
    sustain (reaching sounding s) (notes (s :: more)) = sustain sounding (notes (s :: more)) := by
  cases hs : s.isRest with
  | true => rw [reaching_of_isRest hs]
  | false =>
    rw [reaching_of_note hs, notes_cons_of_note hs, sustain, sustain, max_assoc, max_self]

/-- What becomes of such a line. -/
structure HeldAs (last : Span) (sounding : Int) (more out : List Span) : Prop where
  /-- The spans follow each other. -/
  ordered : out.Pairwise fun s t => s.stop ≤ t.start
  /-- The spans last. -/
  lasting : ∀ s ∈ out, s.start < s.stop
  /-- Nothing begins earlier. -/
  start_le : ∀ s ∈ out, last.start ≤ s.start
  /-- The notes are held. -/
  notes_eq : notes out = sustain sounding (notes (last :: more))
  /-- Silence remains where nothing sounds on. -/
  silence : ∀ time,
    At out true time ↔ At (last :: more) true time ∧ Quiet sounding (notes more) time

namespace Holding

/-- The first of the spans that follow begins first. -/
lemma tail_le (h : Holding last sounding (s :: more)) {t : Span} (ht : t ∈ s :: more) :
    s.start ≤ t.start := by
  rcases List.mem_cons.mp ht with rfl | ht
  · exact le_rfl
  · have hafter := (List.pairwise_cons.mp (List.pairwise_cons.mp h.ordered).2).1 t ht
    have hs := h.lasting s (by simp)
    omega

/-- There is nothing in the line that follows before its first span begins. -/
lemma start_le_of_at (h : Holding last sounding (s :: more)) {silent : Bool}
    (hat : At (s :: more) silent time) : s.start ≤ time := by
  obtain ⟨t, ht, -, hhas⟩ := hat
  exact (h.tail_le ht).trans hhas.1

/-- The next span begins behind the last one that is done. -/
lemma stop_le_start (h : Holding last sounding (s :: more)) : last.stop ≤ s.start :=
  (List.pairwise_cons.mp h.ordered).1 s List.mem_cons_self

end Holding

namespace HeldAs

/-- Before a span that begins behind it, another one may stand. -/
lemma cons (h : HeldAs s sounding more out) {first : Span} (hfirst : first.start < first.stop)
    (hs : first.stop ≤ s.start) :
    (first :: out).Pairwise (fun s t => s.stop ≤ t.start) ∧
      (∀ t ∈ first :: out, t.start < t.stop) ∧ ∀ t ∈ first :: out, first.start ≤ t.start := by
  refine ⟨List.pairwise_cons.mpr ⟨fun t ht => hs.trans (h.start_le t ht), h.ordered⟩,
    List.forall_mem_cons.mpr ⟨hfirst, h.lasting⟩,
    List.forall_mem_cons.mpr ⟨le_rfl, fun t ht => ?_⟩⟩
  have := h.start_le t ht
  omega

/-- A rest stays as it is. -/
lemma ofRest (hlast : last.isRest = true) (h : Holding last sounding (s :: more))
    (hrest : HeldAs s (reaching sounding s) more out) :
    HeldAs last sounding (s :: more) (last :: out) := by
  have hbehind := h.stop_le_start
  have hlasting := h.lasting last List.mem_cons_self
  obtain ⟨hordered, hlasts, hstarts⟩ := hrest.cons hlasting hbehind
  refine ⟨hordered, hlasts, hstarts, ?_, fun time => ?_⟩
  · rw [notes_cons_of_isRest hlast, notes_cons_of_isRest hlast, hrest.notes_eq, sustain_reaching]
  · have hquiet : last.Has time → Quiet sounding (notes (s :: more)) time := by
      intro hhas
      refine ⟨(h.of_rest hlast).trans hhas.1, fun n hn hle => ?_⟩
      have hafter := h.tail_le (mem_notes.mp hn).1
      have hin := hhas.2
      omega
    have hat : At (s :: more) true time → (Quiet (reaching sounding s) (notes more) time ↔
        Quiet sounding (notes (s :: more)) time) := fun hat => quiet_reaching (h.start_le_of_at hat)
    rw [at_cons, at_cons, hrest.silence, hlast]
    tauto

/-- A note is held, and what follows is the same for its notes and for its silence. -/
lemma ofNote (hlast : last.isRest = false) (h : Holding last sounding (s :: more)) {s' : Span}
    {sounding' stop : Int} (hrest : HeldAs s' sounding' more out) (hstart : last.start < stop)
    (hstop : stop ≤ s'.start)
    (hvalue : ((notes (s :: more)).head?.map fun m => min m.start sounding).getD sounding = stop)
    (hnotes : sustain sounding' (notes (s' :: more)) = sustain sounding (notes (s :: more)))
    (hsilence : ∀ time, (At (s' :: more) true time ∧ Quiet sounding' (notes more) time) ↔
      (At (s :: more) true time ∧ Quiet sounding (notes (s :: more)) time)) :
    HeldAs last sounding (s :: more) (last.lastingTo stop :: out) := by
  have hheld : (last.lastingTo stop).isRest = false := hlast
  have hreach := (h.of_note hlast).2
  have hlasting : (last.lastingTo stop).start < (last.lastingTo stop).stop := by simpa using hstart
  have hbehind : (last.lastingTo stop).stop ≤ s'.start := by simpa using hstop
  obtain ⟨hordered, hlasts, hstarts⟩ := hrest.cons hlasting hbehind
  refine ⟨hordered, hlasts, hstarts, ?_, fun time => ?_⟩
  · rw [notes_cons_of_note hheld, notes_cons_of_note hlast, hrest.notes_eq, hnotes, sustain,
      max_eq_left hreach, hvalue]
  · rw [at_cons, at_cons, hrest.silence, hheld, hlast]
    simp only [Bool.false_eq_true, false_and, false_or]
    exact hsilence time

/-- A rest below the reach of the notes disappears under the last of them. -/
lemma ofSwallowed (hlast : last.isRest = false) (hs : s.isRest = true) (hstop : s.stop ≤ sounding)
    (hrest : HeldAs (last.lastingTo s.stop) sounding more out) :
    HeldAs last sounding (s :: more) out := by
  have hheld : (last.lastingTo s.stop).isRest = false := hlast
  refine ⟨hrest.ordered, hrest.lasting, hrest.start_le, ?_, fun time => ?_⟩
  · rw [hrest.notes_eq, notes_cons_of_note hheld, notes_cons_of_note hlast,
      notes_cons_of_isRest hs]
    rfl
  · have hloud : s.Has time → ¬ Quiet sounding (notes more) time := by
      intro hhas hquiet
      have hin := hhas.2
      have hfree := hquiet.1
      omega
    rw [hrest.silence, at_cons, at_cons, at_cons, hheld, hlast, notes_cons_of_isRest hs]
    simp only [Bool.false_eq_true, false_and, false_or]
    tauto

end HeldAs

/-! ## A whole line -/

namespace Holding

/-- What follows is a line as well: its spans follow each other and last, and its notes sound no
longer than they reach. -/
lemma tail (h : Holding last sounding (s :: more)) :
    (s :: more).Pairwise (fun s t => s.stop ≤ t.start) ∧ (∀ t ∈ s :: more, t.start < t.stop) ∧
      ∀ n ∈ more, n.isRest = false → n.stop ≤ n.reach :=
  ⟨(List.pairwise_cons.mp h.ordered).2, (List.forall_mem_cons.mp h.lasting).2,
    fun n hn => h.stop_le n (List.mem_cons_of_mem _ hn)⟩

/-- Behind a rest, or before a note, the next span is simply done. -/
lemma next (h : Holding last sounding (s :: more))
    (hs : s.isRest = true → sounding ≤ s.start) : Holding s (reaching sounding s) more := by
  obtain ⟨hordered, hlasting, hstop⟩ := h.tail
  refine ⟨hordered, hlasting, hstop, fun hnote => ?_, fun hrest => ?_⟩
  · rw [reaching_of_note hnote]
    exact ⟨(h.stop_le s List.mem_cons_self hnote).trans (le_max_right _ _), le_max_right _ _⟩
  · rw [reaching_of_isRest hrest]
    exact hs hrest

/-- A rest that is not swallowed is done from the reach of the notes on. -/
lemma trimmed (h : Holding last sounding (s :: more)) (hs : s.isRest = true)
    (hstop : sounding < s.stop) :
    Holding { s with start := sounding, units := s.stop - sounding } sounding more := by
  obtain ⟨hordered, hlasting, hwritten⟩ := h.tail
  obtain ⟨hafter, hmore⟩ := List.pairwise_cons.mp hordered
  have hend : ({ s with start := sounding, units := s.stop - sounding } : Span).stop = s.stop := by
    simp only [Span.stop]
    omega
  refine ⟨List.pairwise_cons.mpr ⟨fun t ht => ?_, hmore⟩, List.forall_mem_cons.mpr ⟨?_, ?_⟩,
    hwritten, fun hnote => ?_, fun _ => le_rfl⟩
  · rw [hend]
    exact hafter t ht
  · rw [hend]
    exact hstop
  · exact (List.forall_mem_cons.mp hlasting).2
  · have hrest : s.isRest = false := hnote
    rw [hs] at hrest
    cases hrest

/-- The part of a rest that is cut off is not quiet. -/
lemma trimmed_silence (hs : s.isRest = true) (hstart : s.start ≤ sounding) (time : Int) :
    (At ({ s with start := sounding, units := s.stop - sounding } :: more) true time ∧
        Quiet sounding (notes more) time) ↔
      (At (s :: more) true time ∧ Quiet sounding (notes (s :: more)) time) := by
  have hpart : ({ s with start := sounding, units := s.stop - sounding } : Span).Has time ↔
      s.Has time ∧ sounding ≤ time := by
    simp only [Has, Span.stop]
    omega
  have hquiet : Quiet sounding (notes more) time → sounding ≤ time := And.left
  rw [at_cons, at_cons, hpart, notes_cons_of_isRest hs]
  tauto

/-- A note that swallowed a rest lasts up to its end. -/
lemma swallowed (h : Holding last sounding (s :: more)) (hlast : last.isRest = false)
    (hstop : s.stop ≤ sounding) : Holding (last.lastingTo s.stop) sounding more := by
  obtain ⟨hordered, hlasting, hwritten⟩ := h.tail
  obtain ⟨hafter, hmore⟩ := List.pairwise_cons.mp hordered
  obtain ⟨hs, hlasts⟩ := List.forall_mem_cons.mp hlasting
  have hbehind := h.stop_le_start
  have hlong := h.lasting last List.mem_cons_self
  refine ⟨List.pairwise_cons.mpr ⟨fun t ht => ?_, hmore⟩,
    List.forall_mem_cons.mpr ⟨?_, hlasts⟩, hwritten, fun _ => ⟨?_, (h.of_note hlast).2⟩,
    fun hrest => ?_⟩
  · simpa using hafter t ht
  · rw [lastingTo_start, lastingTo_stop]
    omega
  · simpa using hstop
  · have hnote : last.isRest = true := hrest
    rw [hlast] at hnote
    cases hnote

/-- The last span of a line. -/
lemma heldAs_nil (h : Holding last sounding []) :
    HeldAs last sounding [] [if last.isRest then last else last.stretch sounding] := by
  have hlasting := h.lasting last List.mem_cons_self
  cases hlast : last.isRest with
  | true =>
    rw [if_pos rfl]
    refine ⟨List.pairwise_singleton _ _, by simpa using hlasting, by simp, ?_, fun time => ?_⟩
    · rw [notes_cons_of_isRest hlast]
      rfl
    · have hquiet : last.Has time → Quiet sounding (notes []) time :=
        fun hhas => ⟨(h.of_rest hlast).trans hhas.1, fun n hn => absurd hn List.not_mem_nil⟩
      simp only [at_cons, hlast, true_and]
      have hnone : ¬ At [] true time := by simp [At]
      tauto
  | false =>
    obtain ⟨hstop, hreach⟩ := h.of_note hlast
    rw [if_neg (by simp), stretch_eq hstop]
    refine ⟨List.pairwise_singleton _ _, ?_, by simp, ?_, fun time => ?_⟩
    · simpa using hlasting.trans_le hstop
    · rw [notes_cons_of_note (show (last.lastingTo sounding).isRest = false from hlast),
        notes_cons_of_note hlast]
      change _ = [last.lastingTo (max sounding last.reach)]
      rw [max_eq_left hreach]
      rfl
    · simp [At, hlast]

/-- Holding a note until the next one begins, or as far as it reaches. -/
lemma hold_note (hlast : last.isRest = false) (hs : s.isRest = false)
    (h : Holding last sounding (s :: more)) (before : List Span) :
    hold (last :: before) sounding (s :: more) =
      hold (s :: last.lastingTo (min s.start sounding) :: before) (reaching sounding s) more := by
  have hstop : last.stop ≤ min s.start sounding := le_min h.stop_le_start (h.of_note hlast).1
  rw [hold, reaching_of_note hs]
  simp only [hlast, hs, Bool.false_eq_true, if_false, Bool.false_and, stretch_eq hstop]

/-- Holding a note through a rest, or up to where it reaches. -/
lemma hold_rest (hlast : last.isRest = false) (hs : s.isRest = true)
    (h : Holding last sounding (s :: more)) (before : List Span) :
    hold (last :: before) sounding (s :: more) =
      if sounding ≤ s.start then hold (s :: last.lastingTo sounding :: before) sounding more
      else if s.stop ≤ sounding then hold (last.lastingTo s.stop :: before) sounding more
      else
        hold ({ s with start := sounding, units := s.stop - sounding } ::
          last.lastingTo sounding :: before) sounding more := by
  have hbehind := h.stop_le_start
  have hlasting := h.lasting s (by simp)
  have hstop : last.stop ≤ min s.stop sounding := le_min (by omega) (h.of_note hlast).1
  rw [hold]
  simp only [hlast, hs, Bool.false_eq_true, if_false, if_true, Bool.true_and, stretch_eq hstop,
    lastingTo_stop, decide_eq_true_eq]
  by_cases hkept : sounding ≤ s.start
  · rw [if_pos hkept, if_neg (by omega), min_eq_right (by omega)]
  · rw [if_neg hkept, if_pos (by omega)]
    by_cases hswallowed : s.stop ≤ sounding
    · rw [if_pos hswallowed, min_eq_left hswallowed, if_pos le_rfl]
    · rw [if_neg hswallowed, min_eq_right (by omega), if_neg hswallowed]

/-- Behind a rest the next span is done as it is. -/
lemma hold_of_isRest (hlast : last.isRest = true) (before : List Span) :
    hold (last :: before) sounding (s :: more) =
      hold (s :: last :: before) (reaching sounding s) more := by
  rw [hold]
  simp only [hlast, if_true]
  rfl

/-- The notes behind a rest begin behind its end. -/
lemma getD_head?_notes (h : Holding last sounding (s :: more)) (hs : s.isRest = true)
    (hstop : sounding < s.stop) :
    ((notes (s :: more)).head?.map fun m => min m.start sounding).getD sounding = sounding := by
  rw [notes_cons_of_isRest hs]
  cases hnotes : notes more with
  | nil => rfl
  | cons m rest =>
    have hm : m ∈ more := (mem_notes.mp (hnotes ▸ List.mem_cons_self)).1
    have hafter := (List.pairwise_cons.mp h.tail.1).1 m hm
    exact min_eq_right (by omega)

/-- A line is held from every span on. -/
theorem exists_heldAs (h : Holding last sounding more) :
    ∃ out, (∀ before, (hold (last :: before) sounding more).reverse = before.reverse ++ out) ∧
      HeldAs last sounding more out := by
  induction more generalizing last sounding with
  | nil =>
    refine ⟨_, fun before => ?_, h.heldAs_nil⟩
    rw [hold]
    split <;> simp
  | cons s more ih =>
    have hlong := h.lasting last List.mem_cons_self
    have hbehind := h.stop_le_start
    by_cases hlast : last.isRest = true
    · obtain ⟨out, heq, hheld⟩ := ih (h.next fun _ => by have := h.of_rest hlast; omega)
      refine ⟨last :: out, fun before => ?_, hheld.ofRest hlast h⟩
      rw [hold_of_isRest hlast, heq]
      simp
    have hlast : last.isRest = false := by simpa using hlast
    obtain ⟨hstop, hreach⟩ := h.of_note hlast
    have hsame (time : Int) : (At (s :: more) true time ∧
        Quiet (reaching sounding s) (notes more) time) ↔
        (At (s :: more) true time ∧ Quiet sounding (notes (s :: more)) time) :=
      and_congr_right fun hat => quiet_reaching (h.start_le_of_at hat)
    by_cases hs : s.isRest = true
    · by_cases hkept : sounding ≤ s.start
      · have hs' := h.lasting s (by simp)
        obtain ⟨out, heq, hheld⟩ := ih (h.next fun _ => hkept)
        refine ⟨last.lastingTo sounding :: out, fun before => ?_,
          hheld.ofNote hlast h (by omega) hkept (h.getD_head?_notes hs (by omega))
            sustain_reaching hsame⟩
        rw [reaching_of_isRest hs] at heq
        rw [hold_rest hlast hs h, if_pos hkept, heq]
        simp
      · by_cases hswallowed : s.stop ≤ sounding
        · obtain ⟨out, heq, hheld⟩ := ih (h.swallowed hlast hswallowed)
          refine ⟨out, fun before => ?_, hheld.ofSwallowed hlast hs hswallowed⟩
          rw [hold_rest hlast hs h, if_neg hkept, if_pos hswallowed, heq]
        · obtain ⟨out, heq, hheld⟩ := ih (h.trimmed hs (by omega))
          refine ⟨last.lastingTo sounding :: out, fun before => ?_,
            hheld.ofNote hlast h (by omega) le_rfl (h.getD_head?_notes hs (by omega)) ?_
              (trimmed_silence hs (by omega))⟩
          · rw [hold_rest hlast hs h, if_neg hkept, if_neg hswallowed, heq]
            simp
          · rw [notes_cons_of_isRest hs, notes_cons_of_isRest]
            exact hs
    · have hs : s.isRest = false := by simpa using hs
      obtain ⟨out, heq, hheld⟩ := ih (h.next fun hrest => by rw [hs] at hrest; cases hrest)
      refine ⟨last.lastingTo (min s.start sounding) :: out, fun before => ?_,
        hheld.ofNote hlast h (by omega) (min_le_left _ _) ?_ sustain_reaching hsame⟩
      · rw [hold_note hlast hs h, heq]
        simp
      · rw [notes_cons_of_note hs]
        rfl

end Holding

/-! ## Sustained notes -/

/-- Notes in the order of their starts. -/
def IsSorted (ns : List Span) : Prop :=
  ns.Pairwise fun m n => m.start ≤ n.start

/-- A sustained note begins with a note and sounds its pitches. -/
lemma exists_of_mem_sustain {ns : List Span} {n : Span} (h : n ∈ sustain sounding ns) :
    ∃ m ∈ ns, n.start = m.start ∧ n.pitches = m.pitches ∧ n.reach = m.reach := by
  induction ns generalizing sounding with
  | nil => cases h
  | cons m rest ih =>
    rcases List.mem_cons.mp h with rfl | h
    · exact ⟨m, List.mem_cons_self, rfl, rfl, rfl⟩
    · obtain ⟨m', hm', heq⟩ := ih h
      exact ⟨m', List.mem_cons_of_mem _ hm', heq⟩

/-- Every note is sustained. -/
lemma exists_mem_sustain {ns : List Span} {m : Span} (h : m ∈ ns) (sounding : Int) :
    ∃ n ∈ sustain sounding ns, n.start = m.start ∧ n.pitches = m.pitches := by
  induction ns generalizing sounding with
  | nil => cases h
  | cons m' rest ih =>
    rcases List.mem_cons.mp h with rfl | h
    · exact ⟨_, List.mem_cons_self, rfl, rfl⟩
    · obtain ⟨n, hn, heq⟩ := ih h (max sounding m'.reach)
      exact ⟨n, List.mem_cons_of_mem _ hn, heq⟩

/-- A sustained note sounds within the reach of the notes up to it. -/
lemma lt_of_mem_sustain {ns : List Span} (hsorted : IsSorted ns) {n : Span}
    (hn : n ∈ sustain sounding ns) (hhas : n.Has time) :
    time < sounding ∨ ∃ m ∈ ns, m.start ≤ time ∧ time < m.reach := by
  induction ns generalizing sounding with
  | nil => cases hn
  | cons m rest ih =>
    obtain ⟨hfirst, hrest⟩ := List.pairwise_cons.mp hsorted
    have hreach (hlt : time < max sounding m.reach) (hle : m.start ≤ time) :
        time < sounding ∨ ∃ m' ∈ m :: rest, m'.start ≤ time ∧ time < m'.reach := by
      rcases lt_max_iff.mp hlt with hlt | hlt
      · exact .inl hlt
      · exact .inr ⟨m, List.mem_cons_self, hle, hlt⟩
    rcases List.mem_cons.mp hn with rfl | hn
    · have hstop := hhas.2
      rw [lastingTo_stop] at hstop
      refine hreach ?_ hhas.1
      cases rest with
      | nil => exact hstop
      | cons m' rest => exact hstop.trans_le (min_le_right _ _)
    · rcases ih hrest hn with hlt | ⟨m', hm', hin⟩
      · obtain ⟨m', hm', hstart, -⟩ := exists_of_mem_sustain hn
        exact hreach hlt ((hfirst m' hm').trans (hstart ▸ hhas.1))
      · exact .inr ⟨m', List.mem_cons_of_mem _ hm', hin⟩

/-- An instant by which the first note has begun belongs to a sustained note, if some note that has
begun reaches beyond it. -/
lemma exists_sustain_cons_has {n : Span} {rest : List Span} (hsorted : IsSorted (n :: rest))
    (hstart : n.start ≤ time) (hreach : time < max sounding n.reach ∨
      ∃ m ∈ rest, m.start ≤ time ∧ time < m.reach) :
    ∃ n' ∈ sustain sounding (n :: rest), n'.Has time := by
  induction rest generalizing n sounding with
  | nil =>
    have hlt : time < max sounding n.reach := by simpa using hreach
    exact ⟨_, List.mem_cons_self, hstart, by rw [lastingTo_stop]; exact hlt⟩
  | cons m rest ih =>
    obtain ⟨-, hrest⟩ := List.pairwise_cons.mp hsorted
    by_cases hm : m.start ≤ time
    · have hlater : time < max (max sounding n.reach) m.reach ∨
          ∃ m' ∈ rest, m'.start ≤ time ∧ time < m'.reach := by
        rcases hreach with hlt | ⟨m', hm', hin⟩
        · exact .inl (hlt.trans_le (le_max_left _ _))
        · rcases List.mem_cons.mp hm' with rfl | hm'
          · exact .inl (hin.2.trans_le (le_max_right _ _))
          · exact .inr ⟨m', hm', hin⟩
      obtain ⟨n', hn', hhas⟩ := ih hrest hm hlater
      exact ⟨n', List.mem_cons_of_mem _ hn', hhas⟩
    · have hlt : time < max sounding n.reach := by
        rcases hreach with hlt | ⟨m', hm', hle, -⟩
        · exact hlt
        · have hafter : m.start ≤ m'.start := by
            rcases List.mem_cons.mp hm' with rfl | hm'
            · exact le_rfl
            · exact (List.pairwise_cons.mp hrest).1 m' hm'
          omega
      refine ⟨_, List.mem_cons_self, hstart, ?_⟩
      rw [lastingTo_stop]
      exact lt_min (not_le.mp hm) hlt

/-- Within the reach of a note something is sustained. -/
lemma exists_sustain_has {ns : List Span} (hsorted : IsSorted ns) {m : Span} (hm : m ∈ ns)
    (hstart : m.start ≤ time) (hreach : time < m.reach) :
    ∃ n ∈ sustain sounding ns, n.Has time := by
  cases ns with
  | nil => cases hm
  | cons n rest =>
    have hfirst : n.start ≤ time := by
      rcases List.mem_cons.mp hm with rfl | hm
      · exact hstart
      · exact ((List.pairwise_cons.mp hsorted).1 m hm).trans hstart
    refine exists_sustain_cons_has hsorted hfirst ?_
    rcases List.mem_cons.mp hm with rfl | hm
    · exact .inl (hreach.trans_le (le_max_right _ _))
    · exact .inr ⟨m, hm, hstart, hreach⟩

/-- From zero on, notes are sustained exactly within the reach of one of them. -/
lemma exists_sustain_zero_has_iff {ns : List Span} (hsorted : IsSorted ns)
    (hstart : ∀ n ∈ ns, 0 ≤ n.start) :
    (∃ n ∈ sustain 0 ns, n.Has time) ↔ ∃ n ∈ ns, n.start ≤ time ∧ time < n.reach := by
  constructor
  · rintro ⟨n, hn, hhas⟩
    obtain ⟨m, hm, hsame, -⟩ := exists_of_mem_sustain hn
    have hnonneg := hstart m hm
    have hin := hhas.1
    exact (lt_of_mem_sustain hsorted hn hhas).resolve_left (by omega)
  · rintro ⟨n, hn, hle, hlt⟩
    exact exists_sustain_has hsorted hn hle hlt

/-! ## The whole layout -/

/-- The notes of some spans, those together that begin together. -/
def chords (spans : List Span) : List Span :=
  notes (spans.foldl (fun line s => lay s line) []).reverse

/-- What the layout of some spans says of them. -/
structure LaidOut (spans line : List Span) : Prop where
  /-- The spans of the line follow each other. -/
  ordered : line.Pairwise fun s t => s.stop ≤ t.start
  /-- They last. -/
  lasting : ∀ s ∈ line, s.start < s.stop
  /-- The chords are the notes of the spans. -/
  gathers : Gathers (notes spans) (chords spans)
  /-- They begin one after another. -/
  sorted : (chords spans).Pairwise fun m n => m.start < n.start
  /-- Each is held as far as a note up to it reaches, up to the next one. -/
  notes_eq : notes line = sustain 0 (chords spans)
  /-- A note sounds exactly where one was written. -/
  sounds : ∀ time, At line false time ↔ At spans false time
  /-- There is silence exactly where a rest was written that no note disturbs. -/
  silence : ∀ time, At line true time ↔
    ∃ r ∈ spans, r.isRest = true ∧ r.Has time ∧ Free spans r.start time

/-- The notes of a line are held. Rests before the first note are done as they are, wherever they
begin. -/
lemma notes_hold {line done : List Span} (hordered : line.Pairwise fun s t => s.stop ≤ t.start)
    (hlasting : ∀ s ∈ line, s.start < s.stop)
    (hstop : ∀ n ∈ line, n.isRest = false → n.stop ≤ n.reach)
    (hdone : ∀ s ∈ done, s.isRest = true) :
    notes (hold done 0 line).reverse = sustain 0 (notes line) := by
  have hsilent {done : List Span} (hdone : ∀ s ∈ done, s.isRest = true) :
      notes done.reverse = [] :=
    List.filter_eq_nil_iff.mpr fun s hs => by simp [hdone s (List.mem_reverse.mp hs)]
  induction line generalizing done with
  | nil =>
    have hstay : hold done 0 [] = done := by
      cases done with
      | nil => rfl
      | cons last before =>
        unfold hold
        dsimp only
        rw [if_pos (hdone last List.mem_cons_self)]
    rw [hstay, hsilent hdone]
    rfl
  | cons s more ih =>
    have hpush : hold done 0 (s :: more) = hold (s :: done) (reaching 0 s) more := by
      cases done with
      | nil =>
        rw [hold]
        rfl
      | cons last before => exact Holding.hold_of_isRest (hdone last List.mem_cons_self) before
    rw [hpush]
    cases hs : s.isRest with
    | true =>
      rw [reaching_of_isRest hs, notes_cons_of_isRest hs]
      apply ih (List.pairwise_cons.mp hordered).2 (List.forall_mem_cons.mp hlasting).2
        (List.forall_mem_cons.mp hstop).2
      exact List.forall_mem_cons.mpr ⟨hs, hdone⟩
    | false =>
      have hholding : Holding s (reaching 0 s) more := by
        refine ⟨hordered, hlasting, (List.forall_mem_cons.mp hstop).2, fun hnote => ?_, ?_⟩
        · rw [reaching_of_note hnote]
          exact ⟨(hstop s List.mem_cons_self hnote).trans (le_max_right _ _), le_max_right _ _⟩
        · intro hrest
          rw [hs] at hrest
          cases hrest
      obtain ⟨out, heq, hheld⟩ := hholding.exists_heldAs
      have hnotes : notes (done.reverse ++ out) = notes done.reverse ++ notes out :=
        List.filter_append ..
      rw [heq, hnotes, hsilent hdone, List.nil_append, hheld.notes_eq, sustain_reaching]

/-- A line is held as a whole. -/
lemma exists_hold {line : List Span} (hordered : line.Pairwise fun s t => s.stop ≤ t.start)
    (hlasting : ∀ s ∈ line, s.start < s.stop)
    (hstop : ∀ n ∈ line, n.isRest = false → n.stop ≤ n.reach) (hstart : ∀ s ∈ line, 0 ≤ s.start) :
    let out := (hold [] 0 line).reverse
    (out.Pairwise fun s t => s.stop ≤ t.start) ∧ (∀ s ∈ out, s.start < s.stop) ∧
      notes out = sustain 0 (notes line) ∧
      ∀ time, At out true time ↔ At line true time ∧ Quiet 0 (notes line) time := by
  intro out
  cases line with
  | nil => exact ⟨List.Pairwise.nil, by simp [out, hold], rfl, by simp [out, hold, At]⟩
  | cons s more =>
    have hholding : Holding s (reaching 0 s) more := by
      refine ⟨hordered, hlasting, fun n hn => hstop n (List.mem_cons_of_mem _ hn), fun hnote => ?_,
        fun hrest => ?_⟩
      · rw [reaching_of_note hnote]
        exact ⟨(hstop s List.mem_cons_self hnote).trans (le_max_right _ _), le_max_right _ _⟩
      · rw [reaching_of_isRest hrest]
        exact hstart s List.mem_cons_self
    obtain ⟨held, heq, hheld⟩ := hholding.exists_heldAs
    have hout : out = held := heq []
    rw [hout]
    refine ⟨hheld.ordered, hheld.lasting, hheld.notes_eq.trans sustain_reaching, fun time => ?_⟩
    rw [hheld.silence]
    apply and_congr_right
    rintro ⟨t, ht, -, hhas⟩
    apply quiet_reaching
    rcases List.mem_cons.mp ht with rfl | ht
    · exact hhas.1
    · have hafter := (List.pairwise_cons.mp hordered).1 t ht
      have hs := hlasting s List.mem_cons_self
      have := hhas.1
      omega

/-- Notes gather the same in either order of the line. -/
lemma Gathers.reverse {spans line : List Span} (h : Gathers spans line) :
    Gathers spans line.reverse := by
  refine ⟨?_, ?_, ?_, ?_⟩
  · simpa using h.stop_le
  · simpa using h.reach_from
  · simpa using h.mem_pitches
  · simpa using h.kept

/-- Where a gathered note reaches, a note was written. -/
lemma Gathers.at_iff {spans chords : List Span} (h : Gathers (notes spans) chords)
    (hreach : ∀ m ∈ spans, m.reach = m.stop) :
    At spans false time ↔ ∃ n ∈ chords, n.start ≤ time ∧ time < n.reach := by
  constructor
  · rintro ⟨m, hm, hnote, hhas⟩
    obtain ⟨n, hn, hstart, hle⟩ := h.kept m (mem_notes.mpr ⟨hm, hnote⟩)
    have hstop := hhas.2
    rw [← hreach m hm] at hstop
    exact ⟨n, hn, hstart.trans_le hhas.1, hstop.trans_le hle⟩
  · rintro ⟨n, hn, hstart, hlt⟩
    obtain ⟨m, hm, hsame, hstop⟩ := h.reach_from n hn
    obtain ⟨hm, hnote⟩ := mem_notes.mp hm
    refine ⟨m, hm, hnote, hsame.trans_le hstart, ?_⟩
    rw [← hreach m hm, hstop]
    exact hlt

/-- Nothing on a line begins before zero, if no span does. -/
lemma Lays.start_nonneg {spans line : List Span} (h : Lays spans line)
    (hstart : ∀ s ∈ spans, 0 ≤ s.start) : ∀ s ∈ line, 0 ≤ s.start := by
  intro s hs
  by_cases hrest : s.isRest = true
  · have hlasting := h.stacked.start_lt_stop hs
    obtain ⟨r, hr, -, hhas, -⟩ := h.silence s.start ⟨s, hs, hrest, le_rfl, hlasting⟩
    exact (hstart r hr).trans hhas.1
  · have hnote : s.isRest = false := by simpa using hrest
    obtain ⟨m, hm, hsame, -⟩ := h.gathers.reach_from s (mem_notes.mpr ⟨hs, hnote⟩)
    rw [← hsame]
    exact hstart m (mem_notes.mp hm).1

namespace InOrder

variable {spans : List Span} (h : InOrder spans)

include h

/-- The spans of the line, from the first one on, follow each other. -/
lemma ordered_reverse : (spans.foldl (fun line s => lay s line) []).reverse.Pairwise
    fun s t => s.stop ≤ t.start :=
  List.pairwise_reverse.mpr h.lays.stacked.ordered

/-- They last. -/
lemma lasting_reverse :
    ∀ s ∈ (spans.foldl (fun line s => lay s line) []).reverse, s.start < s.stop :=
  fun _ hs => h.lays.stacked.start_lt_stop (List.mem_reverse.mp hs)

/-- The chords gather the notes. -/
lemma gathers_chords : Gathers (notes spans) (chords spans) := by
  have hreverse : chords spans = (notes (spans.foldl (fun line s => lay s line) [])).reverse :=
    List.filter_reverse ..
  rw [hreverse]
  exact h.lays.gathers.reverse

/-- The chords begin one after another. -/
lemma sorted_chords : (chords spans).Pairwise fun m n => m.start < n.start := by
  refine (h.ordered_reverse.filter _).imp_of_mem fun hm _ hle => ?_
  have := h.lasting_reverse _ (List.mem_filter.mp hm).1
  omega

/-- No note of the line sounds longer than it was written. -/
lemma stop_le_reverse : ∀ n ∈ (spans.foldl (fun line s => lay s line) []).reverse,
    n.isRest = false → n.stop ≤ n.reach :=
  fun n hn hnote => h.gathers_chords.stop_le n (mem_notes.mpr ⟨hn, hnote⟩)

/-- Wherever the spans begin, the notes of their layout are the chords, each held as far as a note
up to it reaches. -/
theorem notes_layOut_eq : notes (layOut spans) = sustain 0 (chords spans) :=
  notes_hold h.ordered_reverse h.lasting_reverse h.stop_le_reverse
    fun _ h => absurd h List.not_mem_nil

/-- The layout of spans that begin in the bar. -/
theorem laidOut_layOut (hstart : ∀ s ∈ spans, 0 ≤ s.start) : LaidOut spans (layOut spans) := by
  have hlays := h.lays
  set line := spans.foldl (fun line s => lay s line) [] with hline
  have hat (silent : Bool) (time : Int) : At line.reverse silent time ↔ At line silent time := by
    simp [At]
  have hgathers : Gathers (notes spans) (notes line.reverse) := h.gathers_chords
  obtain ⟨hout, houtLasting, houtNotes, houtSilence⟩ := exists_hold h.ordered_reverse
    h.lasting_reverse h.stop_le_reverse
    (fun s hs => hlays.start_nonneg hstart s (List.mem_reverse.mp hs))
  have hsorted : IsSorted (notes line.reverse) := h.sorted_chords.imp fun hlt => hlt.le
  have hnonneg : ∀ n ∈ notes line.reverse, 0 ≤ n.start := fun n hn =>
    hlays.start_nonneg hstart n (List.mem_reverse.mp (mem_notes.mp hn).1)
  refine ⟨hout, houtLasting, hgathers, h.sorted_chords, houtNotes, fun time => ?_,
    fun time => ⟨fun hrest => ?_, ?_⟩⟩
  · rw [hgathers.at_iff h.reach_eq, ← exists_sustain_zero_has_iff hsorted hnonneg, ← houtNotes]
    simp only [At, mem_notes, and_assoc]
    rfl
  · obtain ⟨hold, -, hquiet⟩ := (houtSilence time).mp hrest
    obtain ⟨r, hr, hsilent, hhas, hbegun⟩ := hlays.silence time ((hat true time).mp hold)
    refine ⟨r, hr, hsilent, hhas, fun m hm => ⟨fun hsounds => ?_, hbegun m hm⟩⟩
    obtain ⟨hm, hnote⟩ := mem_notes.mp hm
    obtain ⟨n, hn, hle, hlt⟩ := (hgathers.at_iff h.reach_eq).mp ⟨m, hm, hnote, hsounds⟩
    exact absurd (hquiet n hn hle) (not_le.mpr hlt)
  · rintro ⟨r, hr, hsilent, hhas, hfree⟩
    refine (houtSilence time).mpr ⟨(hat true time).mpr (hlays.kept r hr hsilent time hhas hfree),
      (hstart r hr).trans hhas.1, fun n hn hle => ?_⟩
    obtain ⟨m, hm, hsame, hstop⟩ := hgathers.reach_from n hn
    have hsilence := (hfree m hm).1
    rw [← hstop, h.reach_eq m (mem_notes.mp hm).1]
    by_contra hlt
    exact hsilence ⟨hsame.trans_le hle, not_le.mp hlt⟩

end InOrder

namespace LaidOut

variable {spans line : List Span} (h : LaidOut spans line)

include h

/-- Where there is silence, no note was written. -/
lemma not_sounds (hrest : At line true time) : ¬ At spans false time := by
  obtain ⟨r, -, -, -, hfree⟩ := (h.silence time).mp hrest
  rintro ⟨n, hn, hnote, hhas⟩
  exact (hfree n (mem_notes.mpr ⟨hn, hnote⟩)).1 hhas

/-- The instants of a line are those at which a note was written, or a rest in which no note has
begun. -/
lemma exists_has_iff : (∃ s ∈ line, s.Has time) ↔ (∃ n ∈ notes spans, n.Has time) ∨
    ∃ r ∈ spans, r.isRest = true ∧ r.Has time ∧
      ∀ n ∈ notes spans, ¬ (r.start < n.start ∧ n.start ≤ time) := by
  have hnotes : At spans false time ↔ ∃ n ∈ notes spans, n.Has time := by
    simp only [At, mem_notes, and_assoc]
  rw [exists_has_iff_at, h.sounds, h.silence, hnotes]
  constructor
  · rintro (hsounds | ⟨r, hr, hrest, hhas, hfree⟩)
    · exact .inl hsounds
    · exact .inr ⟨r, hr, hrest, hhas, fun n hn => (hfree n hn).2⟩
  · rintro (hsounds | ⟨r, hr, hrest, hhas, hbegun⟩)
    · exact .inl hsounds
    · by_cases hsounds : ∃ n ∈ notes spans, n.Has time
      · exact .inl hsounds
      · exact .inr ⟨r, hr, hrest, hhas, fun n hn => ⟨fun hn' => hsounds ⟨n, hn, hn'⟩, hbegun n hn⟩⟩

/-- Every instant of the line is one of the spans that are laid out. -/
lemma exists_has (hs : s ∈ line) (hhas : s.Has time) : ∃ t ∈ spans, t.Has time := by
  obtain ⟨n, hn, hhas⟩ | ⟨r, hr, -, hhas, -⟩ := h.exists_has_iff.mp ⟨s, hs, hhas⟩
  · exact ⟨n, (mem_notes.mp hn).1, hhas⟩
  · exact ⟨r, hr, hhas⟩

end LaidOut

end PatternScore.Span
