import Mathlib.Tactic
import PatternScore.Bar.Layout

/-!
# Laying spans over a line

The spans of a bar are laid over its line one after another, in the order of their starts and notes
before rests. What a step does is said by instants: a rest adds the silence behind the line's end
and nothing else (`at_lay_rest`), a note takes away the silence from its start on
(`LaidOn.at_rest`), and for the notes of the line rests do not matter at all (`notes_lay_rest`,
`LaidOn.notes`). `Lays` is what this keeps true of a whole run: silence on the line is that of a
rest in which no note has begun, and an instant of silence under which no note begins or sounds is
not lost.
-/

namespace PatternScore.Span

/-! ## Instants -/

/-- An instant belongs to a span. -/
def Has (s : Span) (time : Int) : Prop :=
  s.start ≤ time ∧ time < s.stop

/-- At an instant there is silence on a line, or else a note. -/
def At (line : List Span) (silent : Bool) (time : Int) : Prop :=
  ∃ s ∈ line, s.isRest = silent ∧ s.Has time

/-- The notes of a line. -/
def notes (line : List Span) : List Span :=
  line.filter fun s => !s.isRest

/-- Spans that last and follow each other without overlaps, the last one first. -/
structure Stacked (line : List Span) : Prop where
  /-- Each span begins behind all that stand below it. -/
  ordered : line.Pairwise fun s t => t.stop ≤ s.start
  /-- Every span lasts. -/
  lasting : ∀ s ∈ line, 0 < s.units

variable {s last : Span} {line before : List Span} {time : Int} {silent : Bool}

/-- What is at an instant is the first span of the line or in the rest of it. -/
lemma at_cons : At (s :: line) silent time ↔
    (s.isRest = silent ∧ s.Has time) ∨ At line silent time := by
  simp [At]

/-- An instant that belongs to a span is one of a note or of silence. -/
lemma exists_has_iff_at : (∃ s ∈ line, s.Has time) ↔ At line false time ∨ At line true time := by
  constructor
  · rintro ⟨s, hs, hhas⟩
    cases hkind : s.isRest with
    | false => exact .inl ⟨s, hs, hkind, hhas⟩
    | true => exact .inr ⟨s, hs, hkind, hhas⟩
  · rintro (⟨s, hs, -, hhas⟩ | ⟨s, hs, -, hhas⟩) <;> exact ⟨s, hs, hhas⟩

/-- The notes of a line are its spans that are no rests. -/
lemma mem_notes : s ∈ notes line ↔ s ∈ line ∧ s.isRest = false := by
  simp [notes]

/-- A rest adds no note. -/
lemma notes_cons_of_isRest (h : s.isRest = true) : notes (s :: line) = notes line := by
  simp [notes, h]

/-- A note comes before those of the rest of the line. -/
lemma notes_cons_of_note (h : s.isRest = false) : notes (s :: line) = s :: notes line := by
  simp [notes, h]

namespace Stacked

/-- Without its last span a line is one. -/
lemma tail (h : Stacked (last :: before)) : Stacked before :=
  ⟨(List.pairwise_cons.mp h.ordered).2, fun s hs => h.lasting s (List.mem_cons_of_mem _ hs)⟩

/-- Every span of a line ends after it begins. -/
lemma start_lt_stop (h : Stacked line) (hs : s ∈ line) : s.start < s.stop := by
  have := h.lasting s hs
  unfold Span.stop
  omega

/-- Nothing ends behind the last span. -/
lemma stop_le (h : Stacked (last :: before)) (hs : s ∈ last :: before) : s.stop ≤ last.stop := by
  rcases List.mem_cons.mp hs with rfl | hs
  · exact le_rfl
  · have hbelow := (List.pairwise_cons.mp h.ordered).1 s hs
    have hlast := h.start_lt_stop List.mem_cons_self
    omega

/-- A span that begins behind the last one may stand on it. -/
lemma cons (h : Stacked line) (hs : 0 < s.units) (hbehind : ∀ t ∈ line, t.stop ≤ s.start) :
    Stacked (s :: line) :=
  ⟨List.pairwise_cons.mpr ⟨hbehind, h.ordered⟩, List.forall_mem_cons.mpr ⟨hs, h.lasting⟩⟩

/-- Every other span below the last one will do as well. -/
lemma replace (h : Stacked (last :: before)) (hs : 0 < s.units) (hstart : last.start ≤ s.start) :
    Stacked (s :: before) := by
  refine h.tail.cons hs fun t ht => ?_
  exact ((List.pairwise_cons.mp h.ordered).1 t ht).trans hstart

/-- The notes of a line are a line by themselves. -/
lemma notes (h : Stacked line) : Stacked (notes line) :=
  ⟨h.ordered.filter _, fun s hs => h.lasting s (mem_notes.mp hs).1⟩

end Stacked

/-! ## Adding behind the end -/

/-- Behind the end of a line a span is added, or the rest there grows by it. -/
lemma append_cases (s : Span) (line : List Span) :
    append s line = s :: line ∨
      ∃ last before, line = last :: before ∧ s.isRest = true ∧ last.isRest = true ∧
        last.stop = s.start ∧
        append s line = { last with units := last.units + s.units } :: before := by
  cases line with
  | nil => exact .inl rfl
  | cons last before =>
    rw [append]
    split
    · rename_i h
      simp only [Bool.and_eq_true, beq_iff_eq] at h
      exact .inr ⟨last, before, rfl, h.1.1, h.1.2, h.2, rfl⟩
    · exact .inl rfl

/-- A note is never merged with what is last. -/
lemma append_of_note (h : s.isRest = false) (line : List Span) : append s line = s :: line := by
  rcases append_cases s line with heq | ⟨_, _, _, hs, _⟩
  · exact heq
  · rw [h] at hs
    cases hs

/-- A span that lasts and begins behind a line continues it; rests that touch become one. -/
lemma Stacked.append (h : Stacked line) (hs : 0 < s.units)
    (hbehind : ∀ t ∈ line, t.stop ≤ s.start) : Stacked (append s line) := by
  rcases append_cases s line with heq | ⟨last, before, rfl, _, _, _, heq⟩
  · rw [heq]
    exact h.cons hs hbehind
  · rw [heq]
    have hlast := h.lasting last List.mem_cons_self
    exact h.replace (show 0 < last.units + s.units by omega) le_rfl

/-- An addition adds its own instants. -/
lemma at_append (hbehind : ∀ t ∈ line, t.stop ≤ s.start) (h : Stacked line) (hs : 0 < s.units) :
    At (append s line) silent time ↔ (s.isRest = silent ∧ s.Has time) ∨ At line silent time := by
  rcases append_cases s line with heq | ⟨last, before, rfl, hrest, hlast, htouch, heq⟩
  · rw [heq, at_cons]
  · have hlasting := h.lasting last List.mem_cons_self
    have hgrown : ({ last with units := last.units + s.units } : Span).Has time ↔
        s.Has time ∨ last.Has time := by
      simp only [Has, Span.stop] at htouch ⊢
      omega
    rw [heq, at_cons, at_cons, hgrown, hrest, hlast]
    tauto

/-- Merging rests does not touch the notes. -/
lemma notes_append (s : Span) (line : List Span) : notes (append s line) = notes (s :: line) := by
  rcases append_cases s line with heq | ⟨last, before, rfl, hrest, hlast, _, heq⟩
  · rw [heq]
  · rw [heq, notes_cons_of_isRest hrest, notes_cons_of_isRest hlast, notes_cons_of_isRest]
    exact hlast

/-! ## Rests -/

/-- A rest is laid behind the end of the line, if it reaches so far. -/
lemma lay_rest_cases (h : Stacked line) (hs : s.isRest = true) :
    (lay s line = append s line ∧ ∀ t ∈ line, t.stop ≤ s.start) ∨
      ∃ last ∈ line, s.start < last.stop ∧ (∀ t ∈ line, t.stop ≤ last.stop) ∧
        ((s.stop ≤ last.stop ∧ lay s line = line) ∨
          (last.stop < s.stop ∧ lay s line =
            append { s with start := last.stop, units := s.stop - last.stop } line)) := by
  cases line with
  | nil => exact .inl ⟨rfl, fun _ ht => absurd ht List.not_mem_nil⟩
  | cons last before =>
    unfold lay
    split
    · rename_i hle
      exact .inl ⟨rfl, fun t ht => (h.stop_le ht).trans hle⟩
    · rename_i hlt
      refine .inr ⟨last, List.mem_cons_self, by omega, fun t ht => h.stop_le ht, ?_⟩
      split
      · rename_i hle
        exact .inl ⟨hle, rfl⟩
      · rename_i hbehind
        exact .inr ⟨by omega, rfl⟩

/-- Behind a rest the line goes on in order, as only the part of it behind the line's end is
added. -/
lemma Stacked.lay_rest (h : Stacked line) (hs : 0 < s.units) (hrest : s.isRest = true) :
    Stacked (lay s line) := by
  rcases lay_rest_cases h hrest with ⟨heq, hend⟩ | ⟨last, _, _, hend, ⟨-, heq⟩ | ⟨hlt, heq⟩⟩
  · rw [heq]
    exact h.append hs hend
  · rw [heq]
    exact h
  · rw [heq]
    exact h.append (show 0 < s.stop - last.stop by omega) hend

/-- A rest adds the silence behind the end of the line and nothing else. -/
lemma at_lay_rest (h : Stacked line) (hs : 0 < s.units) (hrest : s.isRest = true) :
    At (lay s line) silent time ↔
      At line silent time ∨ (silent = true ∧ s.Has time ∧ ∀ t ∈ line, t.stop ≤ time) := by
  rcases lay_rest_cases h hrest with
    ⟨heq, hend⟩ | ⟨last, hmem, hlt, hend, ⟨hle, heq⟩ | ⟨hbehind, heq⟩⟩
  · have hfree : s.Has time → ∀ t ∈ line, t.stop ≤ time := fun hhas t ht => (hend t ht).trans hhas.1
    rw [heq, at_append hend h hs, hrest]
    tauto
  · have hnone : ¬ (s.Has time ∧ ∀ t ∈ line, t.stop ≤ time) := by
      rintro ⟨hhas, hfree⟩
      have hstop := hfree last hmem
      have hin := hhas.2
      omega
    rw [heq]
    tauto
  · have hpart : ({ s with start := last.stop, units := s.stop - last.stop } : Span).Has time ↔
        s.Has time ∧ ∀ t ∈ line, t.stop ≤ time := by
      have hfree : (∀ t ∈ line, t.stop ≤ time) ↔ last.stop ≤ time :=
        ⟨fun hall => hall last hmem, fun hle t ht => (hend t ht).trans hle⟩
      rw [hfree]
      simp only [Has, Span.stop] at hlt hbehind ⊢
      omega
    rw [heq, at_append hend h (show 0 < s.stop - last.stop by omega), hpart]
    simp only [hrest]
    tauto

/-- A rest leaves the notes of the line as they are. -/
lemma notes_lay_rest (h : Stacked line) (hrest : s.isRest = true) :
    notes (lay s line) = notes line := by
  rcases lay_rest_cases h hrest with ⟨heq, -⟩ | ⟨last, _, _, _, ⟨-, heq⟩ | ⟨-, heq⟩⟩
  · rw [heq, notes_append, notes_cons_of_isRest hrest]
  · rw [heq]
  · rw [heq, notes_append, notes_cons_of_isRest]
    exact hrest

/-! ## Notes -/

/-- A note that begins with another one joins it. -/
def join (s last : Span) : Span :=
  { last with
    pitches := s.pitches.foldl (fun pitches p => insertPitch p pitches) last.pitches
    units := max last.units s.units
    reach := max last.reach s.reach }

/-- A note is laid on the line from which the rests that begin with it or later are taken, where it
follows what is last, joins it or cuts it short. -/
inductive LaidOn (s : Span) : List Span → List Span → Prop where
  /-- The note follows what is last. -/
  | behind {line : List Span} (hend : ∀ last ∈ line.head?, last.stop ≤ s.start) :
      LaidOn s line (s :: line)
  /-- The note joins the last one. -/
  | joins {last : Span} {before : List Span} (hnote : last.isRest = false)
      (hstart : s.start ≤ last.start) : LaidOn s (last :: before) (join s last :: before)
  /-- The note cuts short what is last. -/
  | cuts {last : Span} {before : List Span} (hstart : last.start < s.start)
      (hstop : s.start < last.stop) :
      LaidOn s (last :: before) (s :: { last with units := s.start - last.start } :: before)
  /-- A rest is taken away. -/
  | takes {last : Span} {before line : List Span} (hrest : last.isRest = true)
      (hstart : s.start ≤ last.start) (h : LaidOn s before line) : LaidOn s (last :: before) line

/-- A note is laid in one of the ways in which it can be. -/
lemma laidOn_lay (hs : s.isRest = false) (line : List Span) : LaidOn s line (lay s line) := by
  induction line with
  | nil => exact .behind fun _ h => by cases h
  | cons last before ih =>
    unfold lay
    split
    · rename_i hle
      rw [append_of_note hs]
      refine .behind fun t ht => ?_
      cases ht
      exact hle
    · rename_i hlt
      rw [if_neg (by simp [hs])]
      split
      · rename_i hstart
        split
        · rename_i hrest
          exact .takes hrest hstart ih
        · rename_i hnote
          exact .joins (by simpa using hnote) hstart
      · rename_i hstart
        rw [append_of_note hs]
        exact .cuts (by omega) (by omega)

namespace LaidOn

variable {line' : List Span}

/-- A line on which a note is laid is one. -/
lemma stacked (h : LaidOn s line line') (hs : 0 < s.units) (hline : Stacked line) :
    Stacked line' := by
  induction h with
  | @behind line hend =>
    refine hline.cons hs fun t ht => ?_
    cases line with
    | nil => cases ht
    | cons last before => exact (hline.stop_le ht).trans (hend last rfl)
  | @joins last before hnote hstart =>
    refine hline.replace ?_ le_rfl
    exact lt_max_of_lt_right hs
  | @cuts last before hstart hstop =>
    have hcut : Stacked ({ last with units := s.start - last.start } :: before) :=
      hline.replace (show 0 < s.start - last.start by omega) le_rfl
    refine hcut.cons hs fun t ht => (hcut.stop_le ht).trans ?_
    simp only [Span.stop]
    omega
  | takes hrest hstart h ih => exact ih hline.tail

/-- On top of the line stands a note that begins with the one that was laid. -/
lemma exists_top (h : LaidOn s line line') (hs : s.isRest = false)
    (hstarts : ∀ n ∈ notes line, n.start ≤ s.start) :
    ∃ top below, line' = top :: below ∧ top.isRest = false ∧ top.start = s.start := by
  induction h with
  | @behind line hend => exact ⟨s, line, rfl, hs, rfl⟩
  | @joins last before hnote hstart =>
    have hle := hstarts last (mem_notes.mpr ⟨List.mem_cons_self, hnote⟩)
    exact ⟨_, before, rfl, hnote, le_antisymm hle hstart⟩
  | @cuts last before hstart hstop => exact ⟨s, _, rfl, hs, rfl⟩
  | takes hrest hstart h ih =>
    rw [notes_cons_of_isRest hrest] at hstarts
    exact ih hstarts

/-- A note takes away the silence from its start on. -/
lemma at_rest (h : LaidOn s line line') (hs : s.isRest = false) (hline : Stacked line)
    (hstarts : ∀ n ∈ notes line, n.start ≤ s.start) :
    At line' true time ↔ At line true time ∧ time < s.start := by
  induction h with
  | @behind line hend =>
    have hbefore : At line true time → time < s.start := by
      rintro ⟨t, ht, -, hhas⟩
      cases line with
      | nil => cases ht
      | cons last before => exact hhas.2.trans_le ((hline.stop_le ht).trans (hend last rfl))
    rw [at_cons, hs]
    simp only [Bool.false_eq_true, false_and, false_or]
    tauto
  | @joins last before hnote hstart =>
    have hle := hstarts last (mem_notes.mpr ⟨List.mem_cons_self, hnote⟩)
    have hbefore : At before true time → time < s.start := by
      rintro ⟨t, ht, -, hhas⟩
      have hbelow := (List.pairwise_cons.mp hline.ordered).1 t ht
      exact hhas.2.trans_le (hbelow.trans hle)
    have hjoin : (join s last).isRest = false := hnote
    rw [at_cons, at_cons, hjoin, hnote]
    simp only [Bool.false_eq_true, false_and, false_or]
    tauto
  | @cuts last before hstart hstop =>
    have hbefore : At before true time → time < s.start := by
      rintro ⟨t, ht, -, hhas⟩
      have hbelow := (List.pairwise_cons.mp hline.ordered).1 t ht
      have := hhas.2
      omega
    have hcut : ({ last with units := s.start - last.start } : Span).Has time ↔
        last.Has time ∧ time < s.start := by
      simp only [Has, Span.stop] at hstop ⊢
      omega
    rw [at_cons, at_cons, at_cons, hs, hcut]
    simp only [Bool.false_eq_true, false_and, false_or]
    tauto
  | @takes last before line hrest hstart h ih =>
    have hlater : last.Has time → ¬ time < s.start := fun hhas => by
      have := hhas.1
      omega
    rw [notes_cons_of_isRest hrest] at hstarts
    rw [ih hline.tail hstarts, at_cons]
    tauto

/-- Rests do not matter for the notes of a line. -/
lemma notes (h : LaidOn s line line') (hs : s.isRest = false) (hline : Stacked line) :
    LaidOn s (notes line) (notes line') := by
  induction h with
  | @behind line hend =>
    rw [notes_cons_of_note hs]
    refine .behind fun t ht => ?_
    have hmem : t ∈ line := (mem_notes.mp (List.mem_of_mem_head? ht)).1
    cases line with
    | nil => cases hmem
    | cons last before => exact (hline.stop_le hmem).trans (hend last rfl)
  | @joins last before hnote hstart =>
    have hjoin : (join s last).isRest = false := hnote
    rw [notes_cons_of_note hnote, notes_cons_of_note hjoin]
    exact .joins hnote hstart
  | @cuts last before hstart hstop =>
    rw [notes_cons_of_note hs]
    by_cases hlast : last.isRest = true
    · have hcut : ({ last with units := s.start - last.start } : Span).isRest = true := hlast
      rw [notes_cons_of_isRest hlast, notes_cons_of_isRest hcut]
      refine .behind fun t ht => ?_
      have hmem : t ∈ before := (mem_notes.mp (List.mem_of_mem_head? ht)).1
      have hbelow := (List.pairwise_cons.mp hline.ordered).1 t hmem
      omega
    · have hnote : last.isRest = false := by simpa using hlast
      have hcut : ({ last with units := s.start - last.start } : Span).isRest = false := hnote
      rw [notes_cons_of_note hnote, notes_cons_of_note hcut]
      exact .cuts hstart hstop
  | takes hrest hstart h ih =>
    rw [notes_cons_of_isRest hrest]
    exact ih hline.tail

end LaidOn

/-! ## Chords -/

/-- An inserted pitch joins the others. -/
lemma mem_insertPitch {p q : Int} {pitches : List Int} :
    q ∈ insertPitch p pitches ↔ q = p ∨ q ∈ pitches := by
  induction pitches with
  | nil => simp [insertPitch]
  | cons r rest ih =>
    unfold insertPitch
    split
    · simp
    · split
      · rename_i heq
        simp [heq]
      · simp only [List.mem_cons, ih]
        tauto

/-- So do several pitches. -/
lemma mem_foldl_insertPitch {q : Int} {more pitches : List Int} :
    q ∈ more.foldl (fun pitches p => insertPitch p pitches) pitches ↔ q ∈ more ∨ q ∈ pitches := by
  induction more generalizing pitches with
  | nil => simp
  | cons p rest ih =>
    rw [List.foldl_cons, ih, mem_insertPitch, List.mem_cons]
    tauto

/-- The notes of a line gather some notes: those that begin together are one, with all their pitches
and the end of the one that reaches furthest. -/
structure Gathers (spans line : List Span) : Prop where
  /-- No note sounds longer than it was written. -/
  stop_le : ∀ n ∈ line, n.stop ≤ n.reach
  /-- The end of a note was written. -/
  reach_from : ∀ n ∈ line, ∃ m ∈ spans, m.start = n.start ∧ m.reach = n.reach
  /-- The pitches of a note are those of the notes that begin with it. -/
  mem_pitches : ∀ n ∈ line, ∀ p, p ∈ n.pitches ↔ ∃ m ∈ spans, m.start = n.start ∧ p ∈ m.pitches
  /-- No note is lost. -/
  kept : ∀ m ∈ spans, ∃ n ∈ line, n.start = m.start ∧ m.reach ≤ n.reach

namespace Gathers

variable {spans : List Span}

/-- What is said of notes that begin elsewhere remains true. -/
lemma weaken (h : Gathers spans line) {others : List Span} (hsub : ∀ n ∈ others, n ∈ line)
    (hnew : ∀ n ∈ others, n.start ≠ s.start) :
    (∀ n ∈ others, ∃ m ∈ spans ++ [s], m.start = n.start ∧ m.reach = n.reach) ∧
      ∀ n ∈ others, ∀ p, p ∈ n.pitches ↔
        ∃ m ∈ spans ++ [s], m.start = n.start ∧ p ∈ m.pitches := by
  constructor
  · intro n hn
    obtain ⟨m, hm, heq⟩ := h.reach_from n (hsub n hn)
    exact ⟨m, List.mem_append_left _ hm, heq⟩
  · intro n hn p
    rw [h.mem_pitches n (hsub n hn) p]
    simp only [List.mem_append, List.mem_singleton, or_and_right, exists_or, exists_eq_left]
    simp [(hnew n hn).symm]

/-- A note that begins alone is one more. -/
lemma add (h : Gathers spans line) (hnew : ∀ n ∈ line, n.start ≠ s.start) (hs : s.stop ≤ s.reach) :
    Gathers (spans ++ [s]) (s :: line) := by
  have hmem : s ∈ spans ++ [s] := List.mem_append_right _ (List.mem_singleton_self s)
  obtain ⟨hreach, hpitches⟩ := h.weaken (fun _ hn => hn) hnew
  refine ⟨?_, ?_, ?_, ?_⟩
  · exact List.forall_mem_cons.mpr ⟨hs, h.stop_le⟩
  · exact List.forall_mem_cons.mpr ⟨⟨s, hmem, rfl, rfl⟩, hreach⟩
  · refine List.forall_mem_cons.mpr ⟨fun p => ⟨fun hp => ⟨s, hmem, rfl, hp⟩, ?_⟩, hpitches⟩
    rintro ⟨m, hm, hstart, hp⟩
    rcases List.mem_append.mp hm with hm | hm
    · obtain ⟨n, hn, heq, -⟩ := h.kept m hm
      exact absurd (heq.trans hstart) (hnew n hn)
    · rwa [List.mem_singleton.mp hm] at hp
  · intro m hm
    rcases List.mem_append.mp hm with hm | hm
    · obtain ⟨n, hn, heq⟩ := h.kept m hm
      exact ⟨n, List.mem_cons_of_mem _ hn, heq⟩
    · rw [List.mem_singleton.mp hm]
      exact ⟨s, List.mem_cons_self, rfl, le_rfl⟩

/-- A note that is cut short is still the same. -/
lemma shorten (h : Gathers spans (last :: before)) {units : Int} (hle : units ≤ last.units) :
    Gathers spans ({ last with units } :: before) := by
  obtain ⟨hstop, hstops⟩ := List.forall_mem_cons.mp h.stop_le
  obtain ⟨hreach, hreaches⟩ := List.forall_mem_cons.mp h.reach_from
  obtain ⟨hpitches, hall⟩ := List.forall_mem_cons.mp h.mem_pitches
  refine ⟨List.forall_mem_cons.mpr ⟨?_, hstops⟩, List.forall_mem_cons.mpr ⟨hreach, hreaches⟩,
    List.forall_mem_cons.mpr ⟨hpitches, hall⟩, ?_⟩
  · simp only [Span.stop] at hstop ⊢
    omega
  · intro m hm
    obtain ⟨n, hn, heq⟩ := h.kept m hm
    rcases List.mem_cons.mp hn with rfl | hn
    · exact ⟨_, List.mem_cons_self, heq⟩
    · exact ⟨n, List.mem_cons_of_mem _ hn, heq⟩

/-- A note that begins with the last one is joined to it. -/
lemma join (h : Gathers spans (last :: before)) (hstart : last.start = s.start)
    (hnew : ∀ n ∈ before, n.start ≠ s.start) (hs : s.stop ≤ s.reach) :
    Gathers (spans ++ [s]) (join s last :: before) := by
  have hmem : s ∈ spans ++ [s] := List.mem_append_right _ (List.mem_singleton_self s)
  obtain ⟨hstop, hstops⟩ := List.forall_mem_cons.mp h.stop_le
  obtain ⟨m, hm, hsame, hreach⟩ := h.reach_from last List.mem_cons_self
  obtain ⟨hreaches, hpitches⟩ := h.weaken (fun _ hn => List.mem_cons_of_mem _ hn) hnew
  refine ⟨List.forall_mem_cons.mpr ⟨?_, hstops⟩, List.forall_mem_cons.mpr ⟨?_, hreaches⟩,
    List.forall_mem_cons.mpr ⟨?_, hpitches⟩, ?_⟩
  · simp only [Span.join, Span.stop] at hstop hs ⊢
    omega
  · rcases le_total last.reach s.reach with hle | hle
    · exact ⟨s, hmem, hstart.symm, (max_eq_right hle).symm⟩
    · exact ⟨m, List.mem_append_left _ hm, hsame, hreach.trans (max_eq_left hle).symm⟩
  · intro p
    have hp : p ∈ (Span.join s last).pitches ↔ p ∈ s.pitches ∨ p ∈ last.pitches :=
      mem_foldl_insertPitch
    rw [hp, h.mem_pitches last List.mem_cons_self p]
    simp only [Span.join, List.mem_append, List.mem_singleton, or_and_right, exists_or,
      exists_eq_left, hstart, true_and]
    exact or_comm
  · intro m hm
    rcases List.mem_append.mp hm with hm | hm
    · obtain ⟨n, hn, heq, hle⟩ := h.kept m hm
      rcases List.mem_cons.mp hn with rfl | hn
      · exact ⟨_, List.mem_cons_self, heq, hle.trans (le_max_left _ _)⟩
      · exact ⟨n, List.mem_cons_of_mem _ hn, heq, hle⟩
    · rw [List.mem_singleton.mp hm]
      exact ⟨_, List.mem_cons_self, hstart, le_max_right _ _⟩

/-- A note that is laid on others is gathered with them. -/
lemma laidOn {line' : List Span} (h : Gathers spans line) (hlaid : LaidOn s line line')
    (hnotes : ∀ n ∈ line, n.isRest = false) (hline : Stacked line)
    (hstarts : ∀ m ∈ spans, m.start ≤ s.start) (hs : s.stop ≤ s.reach) :
    Gathers (spans ++ [s]) line' := by
  cases hlaid with
  | behind hend =>
    refine h.add (fun n hn => ?_) hs
    have hlast := hline.start_lt_stop hn
    cases line with
    | nil => cases hn
    | cons last before =>
      have := (hline.stop_le hn).trans (hend last rfl)
      omega
  | @joins last before hnote hstart =>
    have hsame : last.start = s.start := by
      obtain ⟨m, hm, heq, -⟩ := h.reach_from last List.mem_cons_self
      have := hstarts m hm
      omega
    refine h.join hsame (fun n hn => ?_) hs
    have hlast := hline.start_lt_stop (List.mem_cons_of_mem last hn)
    have hbelow := (List.pairwise_cons.mp hline.ordered).1 n hn
    omega
  | @cuts last before hstart hstop =>
    have hunits : s.start - last.start ≤ last.units := by
      unfold Span.stop at hstop
      omega
    refine (h.shorten hunits).add (fun n hn => ?_) hs
    rcases List.mem_cons.mp hn with rfl | hn
    · exact hstart.ne
    · have hlast := hline.start_lt_stop (List.mem_cons_of_mem last hn)
      have hbelow := (List.pairwise_cons.mp hline.ordered).1 n hn
      omega
  | takes hrest hstart hlaid =>
    rw [hnotes _ List.mem_cons_self] at hrest
    cases hrest

end Gathers

/-! ## A whole run -/

/-- A span may be laid before another: it does not begin later, and no rest is laid before a note
that begins with it. -/
def Precedes (s t : Span) : Prop :=
  s.start ≤ t.start ∧ (s.start = t.start → s.isRest = true → t.isRest = true)

/-- At an instant no note sounds, and after a time up to it none has begun. -/
def Free (spans : List Span) (start time : Int) : Prop :=
  ∀ n ∈ notes spans, ¬ n.Has time ∧ ¬ (start < n.start ∧ n.start ≤ time)

/-- What a line says of the spans that were laid. -/
structure Lays (spans line : List Span) : Prop where
  /-- The line is one. -/
  stacked : Stacked line
  /-- Its notes are theirs. -/
  gathers : Gathers (notes spans) (notes line)
  /-- Its silence is that of a rest in which no note has begun. -/
  silence : ∀ time, At line true time → ∃ r ∈ spans, r.isRest = true ∧ r.Has time ∧
    ∀ n ∈ notes spans, ¬ (r.start < n.start ∧ n.start ≤ time)
  /-- Where no further span begins, it has no gaps. -/
  gapless : ∀ time, (∀ s ∈ spans, s.start ≤ time) → (∃ s ∈ line, time < s.stop) →
    ∃ s ∈ line, s.Has time
  /-- Silence is kept that no note disturbs. -/
  kept : ∀ r ∈ spans, r.isRest = true → ∀ time, r.Has time → Free spans r.start time →
    At line true time

/-- Nothing is laid of no spans. -/
lemma lays_nil : Lays [] [] := by
  refine ⟨⟨List.Pairwise.nil, ?_⟩, ⟨?_, ?_, ?_, ?_⟩, ?_, ?_, ?_⟩ <;> simp [At, notes]

/-- The notes of spans and one more are theirs and that one, if it is a note. -/
lemma notes_append_singleton (spans : List Span) (s : Span) :
    notes (spans ++ [s]) = notes spans ++ notes [s] := by
  simp [notes]

/-- An instant that is free among more spans is free among fewer. -/
lemma Free.of_append {spans : List Span} {start : Int} (h : Free (spans ++ [s]) start time) :
    Free spans start time := by
  intro n hn
  refine h n ?_
  rw [notes_append_singleton]
  exact List.mem_append_left _ hn

namespace Lays

variable {spans : List Span}

/-- Where a note of the line sounds, a note was written. -/
lemma sounds (h : Lays spans line) (hreach : ∀ m ∈ spans, m.reach = m.stop)
    (hat : At line false time) : At spans false time := by
  obtain ⟨n, hn, hnote, hhas⟩ := hat
  have hn' : n ∈ notes line := mem_notes.mpr ⟨hn, hnote⟩
  obtain ⟨m, hm, hstart, hstop⟩ := h.gathers.reach_from n hn'
  obtain ⟨hm', hmnote⟩ := mem_notes.mp hm
  have hle := h.gathers.stop_le n hn'
  have hwritten := hreach m hm'
  refine ⟨m, hm', hmnote, ?_⟩
  have hlt := hhas.2
  exact ⟨hstart.trans_le hhas.1, by omega⟩

/-- An instant behind the end of the line before, at which a span begins, is in the line's gap. -/
lemma exists_has (h : Lays spans line) (hstarts : ∀ s ∈ spans, s.start ≤ time) :
    (∃ silent, At line silent time) ∨ ∀ t ∈ line, t.stop ≤ time := by
  by_cases hend : ∃ t ∈ line, time < t.stop
  · obtain ⟨t, ht, hhas⟩ := h.gapless time hstarts hend
    exact .inl ⟨t.isRest, t, ht, rfl, hhas⟩
  · exact .inr fun t ht => not_lt.mp fun hlt => hend ⟨t, ht, hlt⟩

/-- A rest is laid. -/
lemma lay_rest (h : Lays spans line) (hreach : ∀ m ∈ spans, m.reach = m.stop)
    (hprecedes : ∀ t ∈ spans, Precedes t s) (hs : 0 < s.units) (hrest : s.isRest = true) :
    Lays (spans ++ [s]) (lay s line) := by
  have hat {silent : Bool} {time : Int} : At (lay s line) silent time ↔
      At line silent time ∨ (silent = true ∧ s.Has time ∧ ∀ t ∈ line, t.stop ≤ time) :=
    at_lay_rest h.stacked hs hrest
  have hnotes : notes (spans ++ [s]) = notes spans := by
    rw [notes_append_singleton, notes_cons_of_isRest hrest]
    exact List.append_nil _
  have hstacked := h.stacked.lay_rest hs hrest
  refine ⟨hstacked, ?_, ?_, ?_, ?_⟩
  · rw [hnotes, notes_lay_rest h.stacked hrest]
    exact h.gathers
  · intro time htime
    rw [hnotes]
    rcases hat.mp htime with hold | ⟨-, hhas, -⟩
    · obtain ⟨r, hr, hsilent⟩ := h.silence time hold
      exact ⟨r, List.mem_append_left _ hr, hsilent⟩
    · refine ⟨s, by simp, hrest, hhas, fun n hn hbegun => ?_⟩
      exact absurd hbegun.1 (hprecedes n (mem_notes.mp hn).1).1.not_gt
  · rintro time hstarts ⟨x, hx, hlt⟩
    have hbegun : ∀ t ∈ spans, t.start ≤ time := fun t ht => hstarts t (List.mem_append_left _ ht)
    rcases h.exists_has hbegun with ⟨silent, hold⟩ | hend
    · obtain ⟨t, ht, -, hhas⟩ := hat.mpr (.inl hold)
      exact ⟨t, ht, hhas⟩
    · -- The last instant of `x` is new, so it is one of the rest.
      have hlasting := hstacked.start_lt_stop hx
      have hlast : At (lay s line) x.isRest (x.stop - 1) := ⟨x, hx, rfl, by omega, by omega⟩
      have hstop : time < s.stop := by
        rcases hat.mp hlast with ⟨t, ht, -, hhas⟩ | ⟨-, hhas, -⟩
        · have hfree := hend t ht
          have hin := hhas.2
          omega
        · have hin := hhas.2
          omega
      obtain ⟨t, ht, -, hhas⟩ := hat.mpr
        (.inr ⟨rfl, ⟨hstarts s (by simp), hstop⟩, hend⟩)
      exact ⟨t, ht, hhas⟩
  · intro r hr hsilent time hhas hfree
    rcases List.mem_append.mp hr with hold | hnew
    · exact hat.mpr (.inl (h.kept r hold hsilent time hhas hfree.of_append))
    · obtain rfl := List.mem_singleton.mp hnew
      have hstarts : ∀ t ∈ spans, t.start ≤ time := fun t ht => (hprecedes t ht).1.trans hhas.1
      rcases h.exists_has hstarts with ⟨silent, hold⟩ | hend
      · cases silent with
        | true => exact hat.mpr (.inl hold)
        | false =>
          obtain ⟨n, hn, hnote, hsounds⟩ := h.sounds hreach hold
          exact absurd hsounds (hfree.of_append n (mem_notes.mpr ⟨hn, hnote⟩)).1
      · exact hat.mpr (.inr ⟨rfl, hhas, hend⟩)

/-- A note is laid. -/
lemma lay_note (h : Lays spans line) (hreach : s.reach = s.stop)
    (hprecedes : ∀ t ∈ spans, Precedes t s) (hs : 0 < s.units) (hnote : s.isRest = false) :
    Lays (spans ++ [s]) (lay s line) := by
  have hlaid := laidOn_lay hnote line
  have hstarts : ∀ n ∈ notes line, n.start ≤ s.start := by
    intro n hn
    obtain ⟨m, hm, hstart, -⟩ := h.gathers.reach_from n hn
    rw [← hstart]
    exact (hprecedes m (mem_notes.mp hm).1).1
  have hat {time : Int} : At (lay s line) true time ↔ At line true time ∧ time < s.start :=
    hlaid.at_rest hnote h.stacked hstarts
  have hnotes : notes (spans ++ [s]) = notes spans ++ [s] := by
    rw [notes_append_singleton, notes_cons_of_note hnote]
    rfl
  have hstacked := hlaid.stacked hs h.stacked
  refine ⟨hstacked, ?_, ?_, ?_, ?_⟩
  · rw [hnotes]
    refine h.gathers.laidOn (hlaid.notes hnote h.stacked) (fun n hn => (mem_notes.mp hn).2)
      h.stacked.notes (fun m hm => (hprecedes m (mem_notes.mp hm).1).1) hreach.ge
  · intro time htime
    obtain ⟨hold, hbefore⟩ := hat.mp htime
    obtain ⟨r, hr, hsilent, hhas, hbegun⟩ := h.silence time hold
    refine ⟨r, List.mem_append_left _ hr, hsilent, hhas, fun n hn => ?_⟩
    rw [hnotes] at hn
    rcases List.mem_append.mp hn with hn | hn
    · exact hbegun n hn
    · rw [List.mem_singleton.mp hn]
      exact fun hstarted => absurd hstarted.2 hbefore.not_ge
  · rintro time hbegun ⟨x, hx, hlt⟩
    obtain ⟨top, below, heq, -, hstart⟩ := hlaid.exists_top hnote hstarts
    rw [heq] at hstacked hx ⊢
    have hle := hbegun s (by simp)
    have hlast := hstacked.stop_le hx
    exact ⟨top, List.mem_cons_self, hstart.trans_le hle, hlt.trans_le hlast⟩
  · intro r hr hsilent time hhas hfree
    have hold : r ∈ spans := by
      rcases List.mem_append.mp hr with hold | hnew
      · exact hold
      · rw [List.mem_singleton.mp hnew, hnote] at hsilent
        cases hsilent
    have hlater : time < s.start := by
      obtain ⟨hle, hsame⟩ := hprecedes r hold
      have hne : r.start ≠ s.start := fun heq => by
        have := hsame heq hsilent
        rw [hnote] at this
        cases this
      have hs' : s ∈ notes (spans ++ [s]) := by
        rw [hnotes]
        simp
      have := (hfree s hs').2
      omega
    exact hat.mpr ⟨h.kept r hold hsilent time hhas hfree.of_append, hlater⟩

/-- Spans in order are laid one after another. -/
lemma foldl_lay (h : Lays spans line) {more : List Span} (hpositive : ∀ s ∈ more, 0 < s.units)
    (hreach : ∀ m ∈ spans ++ more, m.reach = m.stop) (hordered : more.Pairwise Precedes)
    (hbefore : ∀ t ∈ spans, ∀ s ∈ more, Precedes t s) :
    Lays (spans ++ more) (more.foldl (fun line s => lay s line) line) := by
  induction more generalizing spans line with
  | nil => simpa using h
  | cons s rest ih =>
    obtain ⟨hfirst, hrest⟩ := List.pairwise_cons.mp hordered
    have hprecedes : ∀ t ∈ spans, Precedes t s := fun t ht => hbefore t ht s List.mem_cons_self
    have hs := hpositive s List.mem_cons_self
    have hstep : Lays (spans ++ [s]) (lay s line) := by
      cases hkind : s.isRest with
      | true =>
        exact h.lay_rest (fun m hm => hreach m (List.mem_append_left _ hm)) hprecedes hs hkind
      | false =>
        exact h.lay_note (hreach s (by simp)) hprecedes hs hkind
    have hall : spans ++ s :: rest = spans ++ [s] ++ rest := by simp
    rw [hall] at hreach ⊢
    refine ih hstep (fun t ht => hpositive t (List.mem_cons_of_mem _ ht)) hreach hrest ?_
    intro t ht u hu
    rcases List.mem_append.mp ht with hold | hnew
    · exact hbefore t hold u (List.mem_cons_of_mem _ hu)
    · rw [List.mem_singleton.mp hnew]
      exact hfirst u hu

end Lays

/-- Spans that can be laid one after another. -/
structure InOrder (spans : List Span) : Prop where
  /-- They last. -/
  units_pos : ∀ s ∈ spans, 0 < s.units
  /-- They reach as far as they last. -/
  reach_eq : ∀ s ∈ spans, s.reach = s.stop
  /-- Each may be laid before the later ones. -/
  ordered : spans.Pairwise Precedes

/-- Spans in order are laid as a line. -/
lemma InOrder.lays {spans : List Span} (h : InOrder spans) :
    Lays spans (spans.foldl (fun line s => lay s line) []) :=
  lays_nil.foldl_lay h.units_pos h.reach_eq h.ordered fun _ h => absurd h List.not_mem_nil

end PatternScore.Span
