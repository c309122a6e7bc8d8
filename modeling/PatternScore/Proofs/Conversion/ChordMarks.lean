import PatternScore.Conversion.Run
import PatternScore.Proofs.Conversion.Tokenizing

/-!
# What chords are marked with does not matter

A source marks the notes of one chord with the same mark. Only which marks are equal is ever asked:
with other marks in their place the bars stay the same bars through cutting, measuring, layout and
trimming (`VoicePlan.build_mapChord`, `Slot.trimSilent_mapChord`), and nothing that is written shows
a mark. So a document converts to the same text, warnings and errors when its marks are exchanged
for others, as long as different marks stay different (`Conversion.ofDocument_mapChords`).
-/

namespace PatternScore

variable {τ : Type} {f : ChordMark → ChordMark}

/-! ## Checks and silent bars -/

namespace Slot

/-- Whether a bar is silent has nothing to do with marks. -/
lemma isSilent_comp_mapChord (f : ChordMark → ChordMark) :
    isSilent ∘ mapChord f = (isSilent : Slot τ → Bool) := by
  funext s
  unfold Function.comp isSilent mapChord
  rw [List.all_map]
  rfl

/-- The check compares lengths, and so the warnings are the same. -/
lemma checkAll_mapChord (name : String) (slots : List (Slot τ)) :
    checkAll name (slots.map (mapChord f)) = checkAll name slots := by
  unfold checkAll
  rw [List.mapM_map]
  rfl

/-- The same bars are trimmed at the end of a voice. -/
lemma trimEnd_mapChord (slots : List (Slot τ)) :
    trimEnd (slots.map (mapChord f)) = (trimEnd slots).map (mapChord f) := by
  cases slots with
  | nil => rfl
  | cons first rest =>
    rw [List.map_cons, trimEnd, trimEnd, List.map_cons, ← List.map_reverse, List.dropWhile_map,
      isSilent_comp_mapChord, List.map_reverse]

/-- A voice begins with as many silent bars. -/
lemma leadingSilence_mapChord (slots : List (Slot τ)) :
    leadingSilence (slots.map (mapChord f)) = leadingSilence slots := by
  unfold leadingSilence
  rw [List.takeWhile_map, isSilent_comp_mapChord, List.length_map, List.length_map]

/-- All voices begin with as many silent bars. -/
lemma sharedSilence_mapChord (voices : List (List (Slot τ))) :
    sharedSilence (voices.map (List.map (mapChord f))) = sharedSilence voices := by
  cases voices with
  | nil => rfl
  | cons first rest =>
    simp only [List.map_cons, sharedSilence, List.foldl_map, leadingSilence_mapChord]

/-- Trimming leaves the same bars of all voices. -/
lemma trimSilent_mapChord (voices : List (List (Slot τ))) :
    trimSilent (voices.map (List.map (mapChord f))) =
      (trimSilent voices).map (List.map (mapChord f)) := by
  have htrimEnd : (voices.map (List.map (mapChord f))).map trimEnd =
      (voices.map trimEnd).map (List.map (mapChord f)) := by
    rw [List.map_map, List.map_map]
    exact List.map_congr_left fun slots _ => trimEnd_mapChord slots
  unfold trimSilent
  rw [htrimEnd]
  dsimp only
  rw [sharedSilence_mapChord, List.map_map, List.map_map (g := List.map (mapChord f))]
  refine List.map_congr_left fun slots _ => ?_
  unfold Function.comp dropBars
  rw [← List.map_drop, List.map_map, List.map_map]
  rfl

end Slot

/-! ## Voices -/

variable [Scalar τ]

/-- A voice whose events have other marks is built as before, with the other marks. -/
lemma VoicePlan.build_mapChord (hf : Function.Injective f) (p : VoicePlan τ)
    (events : List (Event τ)) :
    p.build (events.map (Event.mapChord f)) =
      (p.build events).map (List.map (Slot.mapChord f)) := by
  have hepsilon : p.restEpsilon (events.map (Event.mapChord f)) = p.restEpsilon events := by
    unfold restEpsilon
    rw [List.any_map]
    rfl
  unfold build
  rw [hepsilon]
  cases p.header.barLength with
  | error failure => rfl
  | ok length =>
    cases p.restEpsilon events with
    | error failure => rfl
    | ok epsilon =>
      simp only [bind, Except.bind]
      cases p.tolerance length with
      | error failure => rfl
      | ok tolerance =>
        simp only [Event.audible_mapChord, Grid.segment_mapChord]
        cases (p.grid length tolerance).segment (Event.audible epsilon events) with
        | error failure => rfl
        | ok slots => exact mapM_map_comm (fun s => p.tokenize_mapChord hf length s) slots

/-! ## Whole documents -/

/-- A document whose chords are marked with other marks. -/
def Document.mapChords (f : ChordMark → ChordMark) (d : Document τ) : Document τ :=
  { d with voices := d.voices.map (List.map (Event.mapChord f)) }

namespace Conversion

/-- Built voices with other marks of their chords. -/
def mapChords (f : ChordMark → ChordMark) (voices : List (Nat × List (Slot τ))) :
    List (Nat × List (Slot τ)) :=
  voices.map (Prod.map id (List.map (Slot.mapChord f)))

variable (policy : Policy) (c : Settings τ) (d : Document τ)

/-- Voices with other marks are built one after another as before. -/
lemma buildFrom_mapChords (hf : Function.Injective f) (voice : Nat)
    (voices : List (List (Event τ))) :
    buildFrom policy c (d.mapChords f) voice (voices.map (List.map (Event.mapChord f))) =
      { buildFrom policy c d voice voices with
        voices := mapChords f (buildFrom policy c d voice voices).voices } := by
  induction voices generalizing voice with
  | nil => rfl
  | cons events rest ih =>
    have hplan : planOf policy c (d.mapChords f) voice = planOf policy c d voice := rfl
    have hname : (d.mapChords f).voiceName voice = d.voiceName voice := rfl
    rw [List.map_cons, buildFrom, buildFrom, hplan, hname, VoicePlan.build_mapChord hf, ih]
    cases (planOf policy c d voice).build events with
    | error failure =>
      simp only [Except.map]
      split <;> rfl
    | ok slots => cases slots <;> rfl

omit [Scalar τ] in
/-- Whether the settings ask for trimming or not, marks do not matter to it. -/
lemma trimmed_mapChords (voices : List (Nat × List (Slot τ))) :
    trimmed c (mapChords f voices) = mapChords f (trimmed c voices) := by
  have hnumbers : (mapChords f voices).map (·.1) = voices.map (·.1) := List.map_map
  have hbars : (mapChords f voices).map (·.2) =
      (voices.map (·.2)).map (List.map (Slot.mapChord f)) := by
    rw [mapChords, List.map_map, List.map_map]
    rfl
  unfold trimmed
  rw [hnumbers, hbars, Slot.trimSilent_mapChord, List.zip_map_right]
  split <;> rfl

omit [Scalar τ] in
/-- Voices are checked under the same names, with the same warnings. -/
lemma checked_mapChords (voices : List (Nat × List (Slot τ))) :
    checked (d.mapChords f) (mapChords f voices) = checked d voices := by
  have hvoice : ∀ v : Nat × List (Slot τ),
      Slot.checkAll ((d.mapChords f).voiceName v.1) (v.2.map (Slot.mapChord f)) =
        Slot.checkAll (d.voiceName v.1) v.2 := fun v => Slot.checkAll_mapChord _ v.2
  unfold checked mapChords
  rw [List.mapM_map]
  simp only [Function.comp_def, Prod.map_fst, Prod.map_snd, id_eq, hvoice]

/-- A program is written from tokens, and marks are none of them. -/
lemma program_mapChords (voices : List (Nat × List (Slot τ))) (errors : List String) :
    program c (d.mapChords f) (mapChords f voices) errors = program c d voices errors := by
  have hlength : (mapChords f voices).length = voices.length := List.length_map _
  have hpart : partOf c (d.mapChords f) = partOf c d := rfl
  have hparts (arrays : List String) :
      arrays.zipWith (partOf c d) (mapChords f voices) = arrays.zipWith (partOf c d) voices := by
    rw [mapChords, List.zipWith_map_right]
    simp only [partOf, Prod.map_fst, Prod.map_snd, id_eq, List.map_map]
    rfl
  have hsections : sectionsOf c (mapChords f voices) = sectionsOf c voices := by
    have hmarks : (mapChords f voices).map (fun v => v.2.map (·.mark)) =
        voices.map fun v => v.2.map (·.mark) := by
      rw [mapChords, List.map_map]
      exact List.map_congr_left fun v _ => List.map_map
    rw [sectionsOf, sectionsOf, hmarks]
  unfold program
  rw [hlength, hpart, hsections]
  simp only [hparts]
  rfl

/-- A document converts to the same text, warnings and errors with other marks of its chords, as
long as different marks stay different. -/
theorem ofDocument_mapChords (hf : Function.Injective f) :
    ofDocument policy c (d.mapChords f) = ofDocument policy c d := by
  have hbuild : build policy c (d.mapChords f) =
      { build policy c d with voices := mapChords f (build policy c d).voices } :=
    buildFrom_mapChords policy c d hf 0 d.voices
  have hisEmpty : (mapChords f (build policy c d).voices).isEmpty =
      (build policy c d).voices.isEmpty := List.isEmpty_map
  rw [ofDocument, ofDocument, hbuild]
  dsimp only
  simp only [hisEmpty, trimmed_mapChords, checked_mapChords, program_mapChords]

end Conversion

end PatternScore
