import PatternScore.Bar.Segmentation
import PatternScore.Proofs.Bar.Collecting

/-!
# Chords by other marks

A mark says which notes are one chord, and nothing else. Bars whose events get other marks are cut
as before, with the other marks (`Grid.cut_mapChord`), and as long as different marks stay different
the same spans are collected (`Span.collect_mapChord`).
-/

namespace PatternScore

variable {τ : Type}

/-- An event with another mark of its chord. -/
def Event.mapChord (f : ChordMark → ChordMark) (e : Event τ) : Event τ :=
  { e with chord := e.chord.map f }

/-- A fragment with another mark of its chord. -/
def Fragment.mapChord (f : ChordMark → ChordMark) (x : Fragment τ) : Fragment τ :=
  { x with chord := x.chord.map f }

/-- A bar with other marks of its chords. -/
def Slot.mapChord (f : ChordMark → ChordMark) (s : Slot τ) : Slot τ :=
  { s with fragments := s.fragments.map (Fragment.mapChord f) }

/-- Bars with other marks of their chords, while they are being cut. -/
def Scanner.mapChord (f : ChordMark → ChordMark) (s : Scanner τ) : Scanner τ :=
  { s with
    current := s.current.map (Fragment.mapChord f)
    closed := s.closed.map (Slot.mapChord f) }

variable [Scalar τ] {f : ChordMark → ChordMark}

/-- Whether an event can be heard, and where it comes in the order, has nothing to do with its
mark. -/
lemma Event.audible_mapChord (f : ChordMark → ChordMark) (epsilon : τ) (events : List (Event τ)) :
    audible epsilon (events.map (mapChord f)) = (audible epsilon events).map (mapChord f) := by
  have hprecedes : ∀ e e' : Event τ, e.precedes e' = (e.mapChord f).precedes (e'.mapChord f) :=
    fun _ _ => rfl
  unfold audible
  rw [List.filter_map, List.map_mergeSort fun e _ e' _ => hprecedes e e']
  rfl

/-! ## Cutting -/

namespace Scanner

variable {g : Grid τ} (s : Scanner τ)

/-- A bar closes with the marks of its fragments. -/
lemma close_mapChord : (s.mapChord f).close g = (s.close g).mapChord f := by
  unfold close mapChord
  cases hcurrent : s.current with
  | nil => rfl
  | cons first rest => simp [Slot.mapChord]

/-- When bars close does not depend on marks. -/
lemma advance_mapChord (time : τ) (bars : Nat) :
    advance g time bars (s.mapChord f) = (advance g time bars s).mapChord f := by
  induction bars generalizing s with
  | zero => rfl
  | succ bars ih =>
    have hstop : (s.mapChord f).stop g = s.stop g := rfl
    rw [advance, advance, hstop, close_mapChord]
    split
    · exact ih _
    · rfl

/-- A fragment gets the mark of the piece of which it is a part. -/
lemma put_mapChord (start stop : τ) (pitch : Option Int) (chord : Option ChordMark) :
    (s.mapChord f).put g start stop pitch (chord.map f) =
      (s.put g start stop pitch chord).mapChord f := by
  have hstart : (s.mapChord f).start g = s.start g := rfl
  have hcut : (s.mapChord f).cut g stop = s.cut g stop := rfl
  unfold put
  rw [hstart, hcut]
  dsimp only
  split <;> rfl

/-- Each bar that a piece crosses gets its part with the other mark. -/
lemma placeFrom_mapChord (stop : τ) (pitch : Option Int) (chord : Option ChordMark) (bars : Nat)
    (start : τ) :
    placeFrom g stop pitch (chord.map f) bars start (s.mapChord f) =
      (placeFrom g stop pitch chord bars start s).mapChord f := by
  induction bars generalizing start s with
  | zero => rfl
  | succ bars ih =>
    have hstop : ∀ s : Scanner τ, (s.mapChord f).stop g = s.stop g := fun _ => rfl
    have hcut : ∀ s : Scanner τ, (s.mapChord f).cut g stop = s.cut g stop := fun _ => rfl
    rw [placeFrom, placeFrom]
    dsimp only
    rw [advance_mapChord, put_mapChord, hstop, hcut, ih]
    split_ifs <;> rfl

/-- An event with another mark is placed at the same time. -/
lemma place_mapChord (onset duration : τ) (pitch : Option Int) (chord : Option ChordMark) :
    (s.mapChord f).place g onset duration pitch (chord.map f) =
      (s.place g onset duration pitch chord).mapChord f :=
  placeFrom_mapChord s _ pitch chord _ onset

/-- Silence is no chord. -/
lemma place_none_mapChord (onset duration : τ) :
    (s.mapChord f).place g onset duration none none =
      (s.place g onset duration none none).mapChord f :=
  place_mapChord s onset duration none none

/-- Marks do not change how far a bar is covered. -/
lemma covered_mapChord (first : Fragment τ) (rest : List (Fragment τ)) :
    covered (first.mapChord f) (rest.map (Fragment.mapChord f)) = covered first rest := by
  unfold covered
  rw [List.foldl_map]
  rfl

/-- The rest that fills the last bar has no mark, so the bars only differ in those they had. -/
lemma finish_mapChord : (s.mapChord f).finish g = (s.finish g).map (Slot.mapChord f) := by
  have hcurrent : (s.mapChord f).current.reverse =
      s.current.reverse.map (Fragment.mapChord f) := List.map_reverse.symm
  unfold finish
  rw [hcurrent]
  cases s.current.reverse with
  | nil => exact List.map_reverse.symm
  | cons first rest =>
    simp only [List.map_cons, covered_mapChord]
    have hfilled : ∀ missing : τ,
        { s.mapChord f with
          current := { offset := covered first rest, duration := missing } ::
            (s.mapChord f).current } =
          Scanner.mapChord f { s with
            current := { offset := covered first rest, duration := missing } :: s.current } :=
      fun _ => rfl
    split
    · rw [hfilled, close_mapChord]
      exact List.map_reverse.symm
    · rw [close_mapChord]
      exact List.map_reverse.symm

end Scanner

/-- Moving the content of an upbeat takes its marks along. -/
lemma Slot.padPickup_mapChord (g : Grid τ) (s : Slot τ) :
    (s.mapChord f).padPickup g = (s.padPickup g).mapChord f := by
  unfold padPickup
  cases hfragments : s.fragments with
  | nil => simp [mapChord, hfragments]
  | cons first rest =>
    have hmapped : (s.mapChord f).fragments =
        first.mapChord f :: rest.map (Fragment.mapChord f) := by
      simp [mapChord, hfragments]
    have hearliest : (rest.map (Fragment.mapChord f)).foldl (fun time x => Scalar.min time x.offset)
        (first.mapChord f).offset =
        rest.foldl (fun time x => Scalar.min time x.offset) first.offset := List.foldl_map
    rw [hmapped]
    dsimp only
    rw [Scanner.covered_mapChord, hearliest]
    split
    · rfl
    · simp [mapChord, hfragments, Fragment.mapChord]

namespace Grid

variable (g : Grid τ)

/-- Silence before an event has no mark, and up to which time everything is placed does not depend
on it. -/
lemma placeEvent_mapChord (shift : τ) (s : Scanner τ) (expected : τ) (e : Event τ) :
    g.placeEvent shift (s.mapChord f, expected) (e.mapChord f) =
      ((g.placeEvent shift (s, expected) e).1.mapChord f,
        (g.placeEvent shift (s, expected) e).2) := by
  unfold placeEvent
  dsimp only [Event.mapChord]
  rw [Scanner.place_none_mapChord]
  split <;> rw [Scanner.place_mapChord]

/-- The events of a voice are placed alike, one after another. -/
lemma foldl_placeEvent_mapChord (shift : τ) (events : List (Event τ)) (s : Scanner τ)
    (expected : τ) :
    (events.map (Event.mapChord f)).foldl (g.placeEvent shift) (s.mapChord f, expected) =
      ((events.foldl (g.placeEvent shift) (s, expected)).1.mapChord f,
        (events.foldl (g.placeEvent shift) (s, expected)).2) := by
  induction events generalizing s expected with
  | nil => rfl
  | cons e rest ih => rw [List.map_cons, List.foldl_cons, List.foldl_cons, placeEvent_mapChord, ih]

/-- Which bar is an upbeat does not depend on marks. -/
lemma markPickup_mapChord (slots : List (Slot τ)) :
    g.markPickup (slots.map (Slot.mapChord f)) = (g.markPickup slots).map (Slot.mapChord f) := by
  cases slots with
  | nil => rfl
  | cons first rest =>
    rw [List.map_cons, markPickup, markPickup, Slot.padPickup_mapChord]
    split_ifs <;> rfl

/-- Events with other marks are cut into the same bars, with the other marks. -/
theorem cut_mapChord (events : List (Event τ)) :
    g.cut (events.map (Event.mapChord f)) = (g.cut events).map (Slot.mapChord f) := by
  have hmark : ∀ slots : List (Slot τ),
      g.mark (slots.map (Slot.mapChord f)) = (g.mark slots).map (Slot.mapChord f) := by
    intro slots
    unfold mark
    rw [List.map_map, List.map_map]
    rfl
  -- Cutting begins with silence, which has no marks.
  have hcut : ∀ (start : Scanner τ) (shift : τ), start.mapChord f = start →
      g.mark (g.markPickup (((events.map (Event.mapChord f)).foldl (g.placeEvent shift)
        (start, shift)).1.finish g)) =
      (g.mark (g.markPickup ((events.foldl (g.placeEvent shift) (start, shift)).1.finish g))).map
        (Slot.mapChord f) := by
    intro start shift hstart
    have hfold := g.foldl_placeEvent_mapChord (f := f) shift events start shift
    rw [hstart] at hfold
    rw [hfold, Scanner.finish_mapChord, markPickup_mapChord, hmark]
  unfold cut
  cases g.shift? with
  | none => exact hcut {} _ rfl
  | some shift =>
    refine hcut _ shift ?_
    rw [← Scanner.place_none_mapChord]
    rfl

/-- A grid that is no grid refuses events with other marks in the same way. -/
lemma segment_mapChord (events : List (Event τ)) :
    g.segment (events.map (Event.mapChord f)) =
      (g.segment events).map (List.map (Slot.mapChord f)) := by
  unfold segment
  rw [cut_mapChord]
  split
  · rfl
  · split <;> rfl

end Grid

/-! ## Collecting -/

namespace Span

/-- A key with another mark. -/
def Key.mapChord (f : ChordMark → ChordMark) : Key → Key
  | .chord mark => .chord (f mark)
  | key => key

/-- If marks stay apart, so do the keys that are made of them. -/
lemma Key.mapChord_injective (hf : Function.Injective f) : Function.Injective (mapChord f) := by
  intro key key' h
  cases key <;> cases key' <;> simp_all [mapChord, hf.eq_iff]

omit [Scalar τ] in
/-- Fragments are collected in the same spans as long as different marks stay different. -/
lemma collect_mapChord (hf : Function.Injective f) (mode : ChordMode)
    (fragments : List (Fragment τ)) :
    collect mode (fragments.map (Fragment.mapChord f)) = collect mode fragments := by
  refine collect_map_of_key (g := Fragment.mapChord f) (Key.mapChord_injective hf) (fun _ => rfl)
    (fun _ => rfl) (fun _ => rfl) (fun x => ?_) fragments
  unfold Key.ofFragment Fragment.mapChord
  cases x.pitch with
  | none => rfl
  | some _ => cases mode <;> cases x.chord <;> rfl

end Span

end PatternScore
