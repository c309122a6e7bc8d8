import Mathlib
import PatternScore.Proofs.Abc.Voices
import PatternScore.Proofs.Bar.ChordMarks

/-!
# Notes that are counted otherwise

The notes of a tune are counted over all of its voices, so the count of a note depends on how the
voices are interleaved. All that becomes of a count is the mark of a chord. A voice that is read
behind other counts is therefore the same voice with other marks (`ReadsAs.mapChords`), and two
tunes with the same voices are read alike up to a one-to-one exchange of marks
(`Tune.exists_rename`).
-/

namespace PatternScore.Abc

variable {τ : Type} [Scalar τ]

/-! ## Voices with other marks -/

namespace Voice

/-- A voice with other marks of its chords. -/
def mapChords (f : ChordMark → ChordMark) (v : Voice τ) : Voice τ :=
  { v with events := v.events.map (Event.mapChord f) }

/-- Two places at which a note is read alike but for the mark of its chord. -/
structure Place.Renames (f : ChordMark → ChordMark) (p p' : Place τ) : Prop where
  /-- The length of a quarter note. -/
  beat_eq : p'.beat = p.beat
  /-- The step of the tonic. -/
  tonic_eq : p'.tonic = p.tonic
  /-- The number of the voice. -/
  voice_eq : p'.voice = p.voice
  /-- The mark of the chord. -/
  mark_eq : .ofVoice p'.voice p'.group = f (.ofVoice p.voice p.group)

variable {f : ChordMark → ChordMark} {p p' : Place τ} {v v' : Voice τ} {n : Note τ}

omit [Scalar τ] in
/-- An event that is added at the other place is the same event with its mark renamed. -/
lemma Place.Renames.add_event (h : p.Renames f p') (v : Voice τ) (onset duration : τ)
    (degree : Option Int) :
    (v.mapChords f).events ++ [p'.event onset duration degree] =
      (v.events ++ [p.event onset duration degree]).map (Event.mapChord f) := by
  rw [List.map_append, event, event, h.mark_eq, h.voice_eq]
  rfl

/-- Extending an event does not touch its mark. -/
lemma extend_mapChords (v : Voice τ) (index : Nat) :
    (v.mapChords f).extend index = (v.extend index).mapChords f := by
  have hevents (g : Event τ → Event τ) (hg : ∀ e, g (e.mapChord f) = (g e).mapChord f) :
      (v.events.map (Event.mapChord f)).modify index g =
        (v.events.modify index g).map (Event.mapChord f) := by
    refine List.ext_getElem? fun i => ?_
    rw [List.getElem?_modify, List.getElem?_map, List.getElem?_map, List.getElem?_modify]
    cases v.events[i]? with
    | none => rfl
    | some e =>
      show some (if index = i then g (e.mapChord f) else e.mapChord f) =
        some ((if index = i then g e else e).mapChord f)
      split_ifs
      · rw [hg]
      · rfl
  exact congrArg (fun events => { v with events })
    (hevents (fun e => { e with duration := v.cursor - e.onset }) fun _ => rfl)

/-- A pitch read at the other place gives the same voice with its marks renamed. -/
lemma pitch_mapChords (h : p.Renames f p') (v : Voice τ) (onset duration : τ) (x : Pitch) :
    (v.mapChords f).pitch p' onset duration x = (v.pitch p onset duration x).mapChords f := by
  have hlength : (v.mapChords f).events.length = v.events.length := List.length_map _
  have hties : (v.mapChords f).ties = v.ties := rfl
  unfold pitch
  simp only [h.tonic_eq, hties, extend_mapChords, h.add_event, hlength]
  cases (if x.endsTie then v.ties.lookup (x.step - p.tonic) else none) <;> dsimp only <;>
    split <;> rfl

/-- So do all pitches of a chord, one after another. -/
lemma foldl_pitch_mapChords (h : p.Renames f p') (v : Voice τ) (onset duration : τ)
    (xs : List Pitch) :
    xs.foldl (fun v x => v.pitch p' onset duration x) (v.mapChords f) =
      (xs.foldl (fun v x => v.pitch p onset duration x) v).mapChords f := by
  induction xs generalizing v with
  | nil => rfl
  | cons x rest ih => rw [List.foldl_cons, List.foldl_cons, pitch_mapChords h, ih]

/-- And so does a whole note, in each of the ways in which it can be taken. -/
lemma Takes.mapChords (h : p.Renames f p') (hv : Takes p v n v') :
    Takes p' (v.mapChords f) n (v'.mapChords f) := by
  have hlasting : n.lasting p'.beat (v.mapChords f).tuplet = n.lasting p.beat v.tuplet := by
    rw [h.beat_eq]
    rfl
  have hpast : (v.past p n).mapChords f = (v.mapChords f).past p' n := by
    unfold past
    rw [hlasting]
    rfl
  cases hv with
  | nothing h' => exact .nothing (hlasting ▸ h')
  | rest h' hrest =>
    have htaken := Takes.rest (p := p') (v := v.mapChords f) (n := n) (hlasting ▸ h') hrest
    rwa [← hpast, hlasting, h.add_event] at htaken
  | pitches h' hrest hpitches =>
    have htaken := Takes.pitches (p := p') (v := v.mapChords f) (n := n) (hlasting ▸ h') hrest
      hpitches
    rw [← hpast, hlasting] at htaken
    rwa [foldl_pitch_mapChords h] at htaken

/-- What becomes of a voice by a note is determined. -/
lemma Takes.unique {v'' : Voice τ} (h : Takes p v n v') (h' : Takes p v n v'') : v'' = v' :=
  Except.ok.inj ((note_eq_ok_iff.mpr h').symm.trans (note_eq_ok_iff.mpr h))

/-- A bar line does not look at marks. -/
lemma barLine_mapChords (v : Voice τ) (barLength : τ) (b : BarLine) :
    (v.mapChords f).barLine barLength b = (v.barLine barLength b).mapChords f := by
  have hcontent : (v.mapChords f).hasContent = v.hasContent := rfl
  have hbars : (v.mapChords f).bars = v.bars := rfl
  unfold barLine
  rw [hcontent, hbars]
  split_ifs <;> rfl

end Voice

/-! ## Voices behind other counts -/

namespace ReadsAs

variable {s : Tune.Setting τ} {number : Nat} {v v' u u' : Voice τ} {es : List (Element τ)}
  {counts counts' : List Nat}

/-- A voice that is read behind other counts is the same voice with other marks. -/
theorem mapChords {f : ChordMark → ChordMark} {g : Nat → Nat}
    (hf : ∀ count, f (.ofVoice number (count + 1)) = .ofVoice number (g count + 1))
    (h : ReadsAs s number v es counts v') :
    ReadsAs s number (v.mapChords f) es (counts.map g) (v'.mapChords f) := by
  induction h with
  | nil v => exact .nil _
  | @note v v' v'' n rest count counts first _ ih =>
    have hrenames : (⟨s.beat, s.tonic, number, count + 1⟩ : Voice.Place τ).Renames f
        ⟨s.beat, s.tonic, number, g count + 1⟩ := ⟨rfl, rfl, rfl, (hf count).symm⟩
    exact .note (first.mapChords hrenames) ih
  | @barLine v _ b _ _ _ ih =>
    rw [← Voice.barLine_mapChords] at ih
    exact .barLine ih
  | other _ ih => exact .other ih

/-- What is read behind given counts is determined. -/
lemma unique (h : ReadsAs s number v es counts v') (h' : ReadsAs s number v es counts u') :
    u' = v' := by
  induction h with
  | nil =>
    cases h'
    rfl
  | note first _ ih =>
    cases h' with
    | note first' more' =>
      rw [first.unique first'] at more'
      exact ih more'
  | barLine _ ih =>
    cases h' with
    | barLine more' => exact ih more'
  | other _ ih =>
    cases h' with
    | other more' => exact ih more'

/-- There is one count for each note. -/
lemma length_eq (h : ReadsAs s number v es counts v') (h' : ReadsAs s number u es counts' u') :
    counts'.length = counts.length := by
  induction h generalizing u counts' with
  | nil =>
    cases h'
    rfl
  | note _ _ ih =>
    cases h' with
    | note _ more' => exact congrArg (· + 1) (ih more')
  | barLine _ ih =>
    cases h' with
    | barLine more' => exact ih more'
  | other _ ih =>
    cases h' with
    | other more' => exact ih more'

end ReadsAs

/-! ## Tunes with the same voices -/

/-- Distinct items can be exchanged for any other distinct items. -/
lemma exists_perm_map_eq {α : Type} {l l' : List α} (hlength : l'.length = l.length)
    (hl : l.Nodup) (hl' : l'.Nodup) : ∃ σ : Equiv.Perm α, l.map σ = l' := by
  obtain ⟨σ, hσ⟩ := Equiv.Perm.exists_extending_pair l.get
    (fun i => l'.get (i.cast hlength.symm)) (List.nodup_iff_injective_get.mp hl)
    ((List.nodup_iff_injective_get.mp hl').comp (Fin.cast_injective _))
  refine ⟨σ, List.ext_getElem (by simp [hlength]) fun i hi _ => ?_⟩
  rw [List.getElem_map]
  exact hσ ⟨i, by simpa using hi⟩

/-- A voice that is read twice, behind different notes each, is read alike up to an exchange of the
counts. -/
lemma ReadsAs.exists_perm {s : Tune.Setting τ} {number : Nat} {v v' : Voice τ}
    {es : List (Element τ)} {counts counts' : List Nat}
    (h : ReadsAs s number .start es counts v) (h' : ReadsAs s number .start es counts' v')
    (hcounts : counts.Nodup) (hcounts' : counts'.Nodup) :
    ∃ σ : Equiv.Perm Nat, ∀ f : ChordMark → ChordMark,
      (∀ count, f (.ofVoice number (count + 1)) = .ofVoice number (σ count + 1)) →
        v' = v.mapChords f := by
  obtain ⟨σ, rfl⟩ := exists_perm_map_eq (h.length_eq h') hcounts hcounts'
  exact ⟨σ, fun f hf => (h.mapChords hf).unique h'⟩

/-- The number of a voice and a count, as the mark that is made of them. -/
def numberedMark : Nat × Nat ↪ ChordMark where
  toFun x := .ofVoice x.1 (x.2 + 1)
  inj' x y h := by
    simp only [ChordMark.ofVoice, ChordMark.ofList, List.foldr, ChordMark.cons.injEq,
      ChordMark.number.injEq] at h
    exact Prod.ext (by omega) (by omega)

/-- Tunes with the same voices are read alike up to a one-to-one exchange of marks. -/
theorem Tune.exists_rename {t t' : Tune τ} {s : Setting τ} {voices voices' : List (Voice τ)}
    (hplaces : t'.places = t.places)
    (hvoices : ∀ place ∈ t.places, t'.voiceAt place = t.voiceAt place)
    (h : t.readVoices s = .ok voices) (h' : t'.readVoices s = .ok voices') :
    ∃ rename : Equiv.Perm ChordMark, voices' = voices.map (Voice.mapChords rename) := by
  obtain ⟨-, hlength, hreads⟩ := t.readsAs_of_readVoices h
  obtain ⟨-, hlength', hreads'⟩ := t'.readsAs_of_readVoices h'
  -- Each voice has an exchange of its own, which leaves the marks of the other voices alone.
  have hvoice : ∀ i, ∃ σ : Equiv.Perm Nat, ∀ f : ChordMark → ChordMark,
      (∀ count, f (.ofVoice i (count + 1)) = .ofVoice i (σ count + 1)) →
        voices'[i]? = voices[i]?.map (Voice.mapChords f) := by
    intro i
    cases hplace : t.places[i]? with
    | none =>
      have hnone : t.places.length ≤ i := List.getElem?_eq_none_iff.mp hplace
      refine ⟨1, fun f _ => ?_⟩
      rw [hplaces] at hlength'
      rw [List.getElem?_eq_none (hlength' ▸ hnone), List.getElem?_eq_none (hlength ▸ hnone)]
      rfl
    | some place =>
      obtain ⟨v, counts, hv, hread, hcounts⟩ := hreads i place hplace
      obtain ⟨v', counts', hv', hread', hcounts'⟩ := hreads' i place (hplaces ▸ hplace)
      rw [hvoices place (List.mem_of_getElem? hplace)] at hread'
      obtain ⟨σ, hσ⟩ := hread.exists_perm hread' hcounts hcounts'
      refine ⟨σ, fun f hf => ?_⟩
      rw [hv, hv', hσ f hf]
      rfl
  choose σ hσ using hvoice
  refine ⟨Equiv.Perm.viaEmbedding (Equiv.prodCongrRight σ) numberedMark, ?_⟩
  refine List.ext_getElem? fun i => ?_
  rw [List.getElem?_map]
  exact hσ i _ fun count => Equiv.Perm.viaEmbedding_apply _ numberedMark (i, count)

end PatternScore.Abc
