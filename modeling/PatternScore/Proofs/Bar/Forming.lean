import PatternScore.Proofs.Bar.Collecting

/-!
# Spans keep their form

A span has the form of a token when it lasts, its pitches ascend, and it has one if it is a note
(`Span.Formed`). The span of a measured fragment has that form. Whatever is done with spans
afterwards keeps it: taking in a fragment, laying one over a line, cutting and stretching. None of
this needs the spans in order, or the fragments apart; nor does any step leave a line empty that was
not.
-/

namespace PatternScore.Span

/-- The span lasts, and it sounds pitches in ascending order if it is a note. -/
structure Formed (s : Span) : Prop where
  /-- It lasts. -/
  units_pos : 0 < s.units
  /-- Its pitches ascend, each once. -/
  ascending : s.pitches.Pairwise (· < ·)
  /-- A note has a pitch. -/
  pitches_ne_nil : s.isRest = false → s.pitches ≠ []

/-- Every span of a line has the form of a token. -/
def AllFormed (line : List Span) : Prop :=
  ∀ s ∈ line, s.Formed

variable {s t last : Span} {line before : List Span}

/-- Of a line all spans are well formed if the first is and the others are. -/
lemma allFormed_cons : AllFormed (s :: line) ↔ s.Formed ∧ AllFormed line :=
  List.forall_mem_cons

/-- The form is kept at another time, if the span still lasts. -/
lemma Formed.retime (h : s.Formed) (hunits : 0 < t.units) (hpitches : t.pitches = s.pitches)
    (hrest : t.isRest = s.isRest) : t.Formed :=
  ⟨hunits, hpitches ▸ h.ascending, fun hnote => hpitches ▸ h.pitches_ne_nil (hrest ▸ hnote)⟩

/-! ## Pitches -/

/-- A pitch takes its place in ascending order. -/
lemma pairwise_insertPitch {pitches : List Int} (h : pitches.Pairwise (· < ·)) (p : Int) :
    (insertPitch p pitches).Pairwise (· < ·) := by
  induction pitches with
  | nil => exact List.pairwise_singleton _ _
  | cons q rest ih =>
    obtain ⟨hq, hrest⟩ := List.pairwise_cons.mp h
    unfold insertPitch
    split
    · rename_i hlt
      refine List.pairwise_cons.mpr ⟨List.forall_mem_cons.mpr ⟨hlt, fun r hr => ?_⟩, h⟩
      exact hlt.trans (hq r hr)
    · split
      · exact h
      · refine List.pairwise_cons.mpr ⟨fun r hr => ?_, ih hrest⟩
        obtain rfl | hr := mem_insertPitch.mp hr
        · omega
        · exact hq r hr

/-- Inserting pitches keeps them ascending, each once. -/
lemma pairwise_foldl_insertPitch {pitches : List Int} (h : pitches.Pairwise (· < ·))
    (more : List Int) :
    (more.foldl (fun pitches p => insertPitch p pitches) pitches).Pairwise (· < ·) := by
  induction more generalizing pitches with
  | nil => exact h
  | cons p rest ih => exact ih (pairwise_insertPitch h p)

/-- A fold whose step never leaves nothing leaves something of a list that is not empty. -/
lemma foldl_ne_nil {α β : Type} {step : List β → α → List β} (hstep : ∀ l x, step l x ≠ [])
    {l : List α} (h : l ≠ []) (start : List β) : l.foldl step start ≠ [] := by
  rw [← List.dropLast_append_getLast h, List.foldl_append]
  exact hstep _ _

/-! ## Collecting fragments -/

section Collecting

variable {τ : Type} {f : Fragment τ} {mode : ChordMode}

/-- So does adding the pitch of a fragment. -/
lemma pairwise_addPitch {pitches : List Int} (h : pitches.Pairwise (· < ·)) (f : Fragment τ) :
    (addPitch pitches f).Pairwise (· < ·) := by
  unfold addPitch
  split
  · exact pairwise_insertPitch h _
  · exact h

/-- The span of a fragment that lasts has the form of a token. -/
lemma formed_ofFragment (h : 0 < f.units) : (ofFragment f).Formed where
  units_pos := h
  ascending := pairwise_addPitch List.Pairwise.nil f
  pitches_ne_nil hnote := by
    obtain ⟨p, hp⟩ : ∃ p, f.pitch = some p := by
      cases hpitch : f.pitch with
      | none => simp [ofFragment, hpitch] at hnote
      | some p => exact ⟨p, rfl⟩
    exact List.ne_nil_of_mem (mem_addPitch.mpr (.inl hp))

/-- A span that takes in a fragment lasts at least as long as before. -/
lemma Formed.extend (h : s.Formed) (f : Fragment τ) : (s.extend f).Formed where
  units_pos := by
    have := h.units_pos
    simp only [Span.extend, Span.stop]
    omega
  ascending := pairwise_addPitch h.ascending f
  pitches_ne_nil hnote := by
    obtain ⟨p, hp⟩ := List.exists_mem_of_ne_nil _ (h.pitches_ne_nil hnote)
    exact List.ne_nil_of_mem (mem_addPitch.mpr (.inr hp))

/-- The spans by key keep their form with one more fragment. -/
lemma formed_absorb {spans : List (Key × Span)} (h : ∀ key s, (key, s) ∈ spans → s.Formed)
    (hf : 0 < f.units) : ∀ key s, (key, s) ∈ absorb mode f spans → s.Formed := by
  intro key s hs
  obtain hold | ⟨-, rfl | ⟨old, hold, rfl⟩⟩ := mem_absorb hs
  · exact h key s hold
  · exact formed_ofFragment hf
  · exact (h key old hold).extend f

/-- Fragments that last are collected into spans that are well formed. -/
lemma formed_foldl_absorb {spans : List (Key × Span)} (h : ∀ key s, (key, s) ∈ spans → s.Formed)
    {fragments : List (Fragment τ)} (hf : ∀ f ∈ fragments, 0 < f.units) :
    ∀ key s, (key, s) ∈ fragments.foldl (fun spans f => absorb mode f spans) spans → s.Formed := by
  induction fragments generalizing spans with
  | nil => exact h
  | cons f rest ih =>
    obtain ⟨hfirst, hrest⟩ := List.forall_mem_cons.mp hf
    exact ih (formed_absorb h hfirst) hrest

/-- The spans of fragments that last have the form of tokens. -/
lemma formed_collect (mode : ChordMode) {fragments : List (Fragment τ)}
    (h : ∀ f ∈ fragments, 0 < f.units) : AllFormed (collect mode fragments) := by
  intro s hs
  rw [collect, List.mem_mergeSort, List.mem_map] at hs
  obtain ⟨⟨key, old⟩, hold, rfl⟩ := hs
  have hformed := formed_foldl_absorb (by simp) h key old hold
  exact hformed.retime hformed.units_pos rfl rfl

/-- The spans of fragments that last can be laid one after another. -/
lemma inOrder_collect (mode : ChordMode) {fragments : List (Fragment τ)}
    (h : ∀ f ∈ fragments, 0 < f.units) : InOrder (collect mode fragments) where
  units_pos s hs := (formed_collect mode h s hs).units_pos
  reach_eq := (merged_collect mode fragments).reach_eq
  ordered := (merged_collect mode fragments).ordered

/-- Fragments have spans. -/
lemma collect_ne_nil (mode : ChordMode) {fragments : List (Fragment τ)} (h : fragments ≠ []) :
    collect mode fragments ≠ [] := by
  have habsorb (spans : List (Key × Span)) (f : Fragment τ) : absorb mode f spans ≠ [] := by
    obtain ⟨s, hs, -⟩ := exists_self_absorb mode f spans
    exact List.ne_nil_of_mem hs
  have hspans : fragments.foldl (fun spans f => absorb mode f spans) [] ≠ [] :=
    foldl_ne_nil habsorb h []
  rw [collect, ← List.length_pos_iff, List.length_mergeSort, List.length_map]
  exact List.length_pos_of_ne_nil hspans

end Collecting

/-! ## Laying out -/

/-- A span that is added to a line, or merged with its last one, leaves a line of well-formed
spans. -/
lemma AllFormed.append (h : AllFormed line) (hs : s.Formed) : AllFormed (append s line) := by
  obtain heq | ⟨last, before, rfl, -, -, -, heq⟩ := append_cases s line
  · rw [heq]
    exact allFormed_cons.mpr ⟨hs, h⟩
  · obtain ⟨hlast, hbefore⟩ := allFormed_cons.mp h
    have hlonger : 0 < last.units + s.units := Int.add_pos hlast.units_pos hs.units_pos
    rw [heq]
    exact allFormed_cons.mpr ⟨hlast.retime hlonger rfl rfl, hbefore⟩

/-- A line to which a span is added is not empty. -/
lemma append_ne_nil (s : Span) (line : List Span) : append s line ≠ [] := by
  obtain heq | ⟨last, before, -, -, -, -, heq⟩ := append_cases s line <;> simp [heq]

/-- A note that takes in another one keeps its form. -/
lemma Formed.join (hlast : last.Formed) (s : Span) : (join s last).Formed where
  units_pos := lt_max_of_lt_left hlast.units_pos
  ascending := pairwise_foldl_insertPitch hlast.ascending _
  pitches_ne_nil hnote := by
    obtain ⟨p, hp⟩ := List.exists_mem_of_ne_nil _ (hlast.pitches_ne_nil hnote)
    exact List.ne_nil_of_mem (mem_foldl_insertPitch.mpr (.inr hp))

/-- Spans keep their form when one is laid over them. -/
lemma AllFormed.lay (h : AllFormed line) (hs : s.Formed) : AllFormed (lay s line) := by
  induction line with
  | nil => exact allFormed_cons.mpr ⟨hs, h⟩
  | cons last before ih =>
    obtain ⟨hlast, hbefore⟩ := allFormed_cons.mp h
    unfold Span.lay
    split
    · exact h.append hs
    · rename_i hover
      split
      · split
        · exact h
        · rename_i hlonger
          have hrest : 0 < s.stop - last.stop := by omega
          exact h.append (hs.retime hrest rfl rfl)
      · split
        · split
          · exact ih hbefore
          · exact allFormed_cons.mpr ⟨hlast.join s, hbefore⟩
        · rename_i hlater
          have hcut : 0 < s.start - last.start := by omega
          have hshort : ({ last with units := s.start - last.start } : Span).Formed :=
            hlast.retime hcut rfl rfl
          exact (allFormed_cons.mpr ⟨hshort, hbefore⟩).append hs

/-- A line on which a span is laid is not empty. -/
lemma lay_ne_nil (s : Span) (line : List Span) : lay s line ≠ [] := by
  induction line with
  | nil => exact List.cons_ne_nil _ _
  | cons last before ih =>
    unfold lay
    split_ifs
    · exact append_ne_nil _ _
    · exact List.cons_ne_nil _ _
    · exact append_ne_nil _ _
    · exact ih
    · exact List.cons_ne_nil _ _
    · exact append_ne_nil _ _

/-- A span that is stretched lasts at least one unit, whatever the time is to which it is
stretched. -/
lemma Formed.stretch (h : s.Formed) (stop : Int) : (s.stretch stop).Formed := by
  unfold Span.stretch
  split
  · rename_i hlonger
    have hunits : 0 < stop - s.start := by
      have := h.units_pos
      simp only [Span.stop] at hlonger
      omega
    exact h.retime hunits rfl rfl
  · exact h

/-- One more span is put on what is done, last first. The last note that is done may be stretched
before, and then a rest may lose its beginning to it, or disappear under it. -/
inductive Puts (s : Span) : List Span → List Span → Prop where
  /-- The span is the first one. -/
  | first : Puts s [] [s]
  /-- The span follows a rest. -/
  | afterRest {last : Span} {before : List Span} (hlast : last.isRest = true) :
      Puts s (last :: before) (s :: last :: before)
  /-- The span follows a note. -/
  | afterNote {last : Span} {before : List Span} (hlast : last.isRest = false) (stop : Int) :
      Puts s (last :: before) (s :: last.stretch stop :: before)
  /-- A rest begins where the note before it ends. -/
  | trims {last : Span} {before : List Span} (hlast : last.isRest = false) (hs : s.isRest = true)
      (stop : Int) (hlonger : (last.stretch stop).stop < s.stop) :
      Puts s (last :: before) ({ s with
        start := (last.stretch stop).stop
        units := s.stop - (last.stretch stop).stop } :: last.stretch stop :: before)
  /-- A rest disappears. -/
  | swallows {last : Span} {before : List Span} (hlast : last.isRest = false)
      (hs : s.isRest = true) (stop : Int) : Puts s (last :: before) (last.stretch stop :: before)

/-- Spans are put on what is done one after another. -/
lemma exists_hold_cons (done : List Span) (sounding : Int) (s : Span) (more : List Span) :
    ∃ done' sounding', hold done sounding (s :: more) = hold done' sounding' more ∧
      Puts s done done' := by
  cases done with
  | nil => exact ⟨_, _, rfl, .first⟩
  | cons last before =>
    rw [hold]
    by_cases hlast : last.isRest = true
    · rw [if_pos hlast]
      exact ⟨_, _, rfl, .afterRest hlast⟩
    · rw [if_neg hlast]
      have hnote : last.isRest = false := by simpa using hlast
      generalize min (if s.isRest then s.stop else s.start) sounding = stop
      dsimp only
      split
      · rename_i hcovers
        have hs : s.isRest = true := (Bool.and_eq_true_iff.mp hcovers).1
        split
        · exact ⟨_, _, rfl, .swallows hnote hs _⟩
        · rename_i hlonger
          exact ⟨_, _, rfl, .trims hnote hs _ (not_le.mp hlonger)⟩
      · exact ⟨_, _, rfl, .afterNote hnote _⟩

namespace Puts

variable {done done' : List Span}

/-- Something is on the line after a span is put there. -/
lemma ne_nil (h : Puts s done done') : done' ≠ [] := by
  cases h <;> exact List.cons_ne_nil _ _

/-- Spans keep their form when one is put on them. -/
lemma allFormed (h : Puts s done done') (hdone : AllFormed done) (hs : s.Formed) :
    AllFormed done' := by
  cases h with
  | first => exact allFormed_cons.mpr ⟨hs, hdone⟩
  | afterRest hlast => exact allFormed_cons.mpr ⟨hs, hdone⟩
  | afterNote hlast stop =>
    obtain ⟨hlast, hbefore⟩ := allFormed_cons.mp hdone
    exact allFormed_cons.mpr ⟨hs, allFormed_cons.mpr ⟨hlast.stretch stop, hbefore⟩⟩
  | @trims last before hlast hrest stop hlonger =>
    obtain ⟨hlast, hbefore⟩ := allFormed_cons.mp hdone
    have hpart : 0 < s.stop - (last.stretch stop).stop := by omega
    exact allFormed_cons.mpr
      ⟨hs.retime hpart rfl rfl, allFormed_cons.mpr ⟨hlast.stretch stop, hbefore⟩⟩
  | swallows hlast hrest stop =>
    obtain ⟨hlast, hbefore⟩ := allFormed_cons.mp hdone
    exact allFormed_cons.mpr ⟨hlast.stretch stop, hbefore⟩

end Puts

/-- Spans keep their form when notes are held through their gaps. -/
lemma AllFormed.hold {done more : List Span} (hdone : AllFormed done) (hmore : AllFormed more)
    (sounding : Int) : AllFormed (hold done sounding more) := by
  induction more generalizing done sounding with
  | nil =>
    cases done with
    | nil => exact hdone
    | cons last before =>
      obtain ⟨hlast, hbefore⟩ := allFormed_cons.mp hdone
      unfold Span.hold
      dsimp only
      split
      · exact hdone
      · exact allFormed_cons.mpr ⟨hlast.stretch _, hbefore⟩
  | cons s more ih =>
    obtain ⟨hs, hmore⟩ := allFormed_cons.mp hmore
    obtain ⟨done', sounding', heq, hputs⟩ := exists_hold_cons done sounding s more
    rw [heq]
    exact ih (hputs.allFormed hdone hs) hmore sounding'

/-- Holding spans leaves some if there were any. -/
lemma hold_ne_nil {done more : List Span} (h : done ≠ [] ∨ more ≠ []) (sounding : Int) :
    hold done sounding more ≠ [] := by
  induction more generalizing done sounding with
  | nil =>
    obtain ⟨last, before, rfl⟩ := List.exists_cons_of_ne_nil (h.resolve_right (· rfl))
    unfold hold
    dsimp only
    split <;> exact List.cons_ne_nil _ _
  | cons s more ih =>
    obtain ⟨done', sounding', heq, hputs⟩ := exists_hold_cons done sounding s more
    rw [heq]
    exact ih (.inl hputs.ne_nil) sounding'

/-- Spans keep their form when they are laid one after another. -/
lemma AllFormed.foldl_lay {spans : List Span} (h : AllFormed spans) (hline : AllFormed line) :
    AllFormed (spans.foldl (fun line s => Span.lay s line) line) := by
  induction spans generalizing line with
  | nil => exact hline
  | cons s rest ih =>
    obtain ⟨hs, hrest⟩ := allFormed_cons.mp h
    exact ih hrest (hline.lay hs)

/-- Spans keep their form when they are laid out. -/
theorem AllFormed.layOut {spans : List Span} (h : AllFormed spans) : AllFormed (layOut spans) := by
  have hnil : AllFormed [] := fun s hs => absurd hs List.not_mem_nil
  have hforward : AllFormed (spans.foldl (fun line s => Span.lay s line) []).reverse :=
    fun s hs => h.foldl_lay hnil s (List.mem_reverse.mp hs)
  exact fun s hs => hnil.hold hforward 0 s (List.mem_reverse.mp hs)

/-- Spans are not laid out as nothing. -/
theorem layOut_ne_nil {spans : List Span} (h : spans ≠ []) : layOut spans ≠ [] := by
  have hline : spans.foldl (fun line s => lay s line) [] ≠ [] :=
    foldl_ne_nil (fun line s => lay_ne_nil s line) h []
  rw [layOut, Ne, List.reverse_eq_nil_iff]
  exact hold_ne_nil (.inr (List.reverse_ne_nil_iff.mpr hline)) 0

end PatternScore.Span
