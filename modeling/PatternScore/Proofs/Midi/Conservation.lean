import Mathlib
import PatternScore.Midi.Extraction
import PatternScore.Proofs.Midi.Matching
import PatternScore.Proofs.Sequence

/-!
# Every note of a recording sounds once

A document made from a recording has one event for every note that is long enough to be heard, and
none besides. The notes of a track are those of its strokes (`Track.exists_paired`); a track gives
its audible notes to one voice, or to a high and a low one (`Handed`), and each voice plays the
notes that it is given, in their order (`Plays`).
-/

namespace PatternScore.Midi

variable {τ : Type} [Scalar τ]

/-! ## Audible notes and hands -/

/-- The note lasts long enough to be heard. -/
def lasts (tick : τ) (n : TrackNote) : Bool :=
  match milliseconds tick (n.stop - n.start) with
  | .ok length => shortest ≤ length
  | .error _ => false

/-- The notes of a track that are long enough to be heard. -/
def Track.audible (tick : τ) (t : Track) : List TrackNote :=
  t.notes.filter (lasts tick)

/-- The name of the voice of a track, without the mark of a hand. -/
def Track.voiceName (t : Track) (number : Nat) : String :=
  t.name?.getD ("Track " ++ Text.nat (number + 1))

/-- How the notes of a track go to voices. -/
inductive Handed (split : Option Int) (name : String) (notes : List TrackNote) :
    List Hand → Prop
  /-- Without notes there is no voice. -/
  | silent (h : notes = []) : Handed split name notes []
  /-- The notes stay together where the track is not split or one side of the split is empty. -/
  | whole (h : notes ≠ []) (hsplit : ∀ lowest, split = some lowest →
        (∀ n ∈ notes, lowest ≤ n.note) ∨ ∀ n ∈ notes, n.note < lowest) :
      Handed split name notes [(name, notes)]
  /-- Both hands have notes. -/
  | both (lowest : Int) (hsplit : split = some lowest) (hhigh : ∃ n ∈ notes, lowest ≤ n.note)
      (hlow : ∃ n ∈ notes, n.note < lowest) :
      Handed split name notes
        [(name ++ " (High)", notes.filter fun n => lowest ≤ n.note),
          (name ++ " (Low)", notes.filter fun n => n.note < lowest)]

/-- A note that is not for the high hand is for the low one. -/
lemma filter_low (lowest : Int) (notes : List TrackNote) :
    (notes.filter fun n => n.note < lowest) = notes.filter fun n => !decide (lowest ≤ n.note) :=
  List.filter_congr fun n _ => by rw [← decide_not, decide_eq_decide, not_le]

/-- The hands of a track have all its notes. -/
lemma Handed.perm {split : Option Int} {name : String} {notes : List TrackNote}
    {hands : List Hand} (h : Handed split name notes hands) :
    (hands.flatMap Prod.snd).Perm notes := by
  cases h with
  | silent h => rw [h, List.flatMap_nil]
  | whole h hsplit => simp
  | both lowest hsplit hhigh hlow =>
    rw [List.flatMap_cons, List.flatMap_singleton, filter_low]
    exact List.filter_append_perm _ _

/-- The notes of a hand keep an order that the notes of the track are in. -/
lemma Handed.pairwise {split : Option Int} {name : String} {notes : List TrackNote}
    {hands : List Hand} {R : TrackNote → TrackNote → Prop} (h : Handed split name notes hands)
    (hnotes : notes.Pairwise R) {hand : Hand} (hhand : hand ∈ hands) : hand.2.Pairwise R := by
  cases h with
  | silent h => exact absurd hhand List.not_mem_nil
  | whole h hsplit =>
    rw [List.mem_singleton.mp hhand]
    exact hnotes
  | both lowest hsplit hhigh hlow =>
    rcases List.mem_cons.mp hhand with rfl | hhand
    · exact hnotes.filter _
    · rw [List.mem_singleton.mp hhand]
      exact hnotes.filter _

/-- The notes of a track go to its hands. -/
lemma handed_hands (split : Option Int) (name : String) {notes : List TrackNote}
    (h : notes ≠ []) : Handed split name notes (hands split name notes) := by
  cases split with
  | none => exact .whole h fun lowest hsplit => by cases hsplit
  | some lowest =>
    have hlow : notes.filter (not ∘ fun n => decide (lowest ≤ n.note)) =
        notes.filter fun n => n.note < lowest := (filter_low lowest notes).symm
    simp only [hands, List.partition_eq_filter_filter, hlow]
    split
    · rename_i hempty
      refine .whole h fun lowest' hsplit => ?_
      obtain rfl := Option.some.inj hsplit
      rcases Bool.or_eq_true_iff.mp hempty with hempty | hempty
      · right
        simpa using hempty
      · left
        simpa using hempty
    · rename_i hnonempty
      simp only [Bool.or_eq_true, List.isEmpty_iff, List.filter_eq_nil_iff, decide_eq_true_eq,
        not_or, not_forall, not_not, exists_prop] at hnonempty
      exact .both lowest rfl hnonempty.1 hnonempty.2

/-! ## The voices of a recording -/

/-- An event plays a note. -/
structure Plays (tick : τ) (pitch : Int → Int) (voice : Nat) (n : TrackNote) (e : Event τ) :
    Prop where
  /-- It begins with the note. -/
  onset : ∃ ticks, Scalar.ofInt n.start = .ok ticks ∧ e.onset = ticks * tick
  /-- It lasts as long. -/
  duration : ∃ ticks, Scalar.ofInt (n.stop - n.start) = .ok ticks ∧ e.duration = ticks * tick
  /-- It has the pitch of the note. -/
  pitch_eq : e.pitch = some (pitch n.note)
  /-- It is one of the voice. -/
  voice_eq : e.voice = voice

/-- A document plays a recording, a tick of which lasts `tick`: `held` are the hands of each
track. -/
structure Recording.PlayedBy (r : Recording) (split : Option Int) (pitch : Int → Int) (tick : τ)
    (held : List (List Hand)) (d : Document τ) : Prop where
  /-- A tick is a part of a quarter note. -/
  tick_eq : (do Scalar.div (← d.header.msPerBeat) (← Scalar.ofInt r.ticksPerBeat)) = .ok tick
  /-- How long a note lasts can be computed. -/
  timed : ∀ t ∈ r.tracks, ∀ n ∈ t.notes,
    ∃ length, milliseconds tick (n.stop - n.start) = .ok length
  /-- The audible notes of each track go to its hands. -/
  handed : List.Forall₂ (fun x hands => Handed split (x.1.voiceName x.2) (x.1.audible tick) hands)
    r.tracks.zipIdx held
  /-- The voices are named for the hands. -/
  names_eq : d.names = held.flatten.map Prod.fst
  /-- Each hand is a voice, with one event for each note. -/
  plays : List.Forall₂ (fun x events => List.Forall₂ (Plays tick pitch x.2) x.1.2 events)
    held.flatten.zipIdx d.voices

/-- Where it can be computed how long a note lasts, it is told as the extraction tells it. -/
lemma lasts_eq {tick : τ} {n : TrackNote} {b : Bool} (h : n.isAudible tick = .ok b) :
    lasts tick n = b := by
  obtain ⟨length, hlength, h⟩ := exists_of_bind_eq_ok h
  rw [lasts, hlength]
  exact Except.ok.inj h

/-- The voices of a track are those of its hands. -/
lemma Track.handed_of_lines {tick : τ} {split : Option Int} {t : Track} {number : Nat}
    {lines : List Line} (h : t.lines tick (.value split) number = .ok lines) :
    Handed split (t.voiceName number) (t.audible tick) (lines.map (·.hand)) := by
  obtain ⟨notes, hnotes, h⟩ := exists_of_bind_eq_ok h
  obtain rfl : notes = t.audible tick := (of_filterM_eq_ok (fun _ _ => lasts_eq) hnotes).2
  by_cases hempty : (t.audible tick).isEmpty
  · rw [if_pos hempty] at h
    rw [← Except.ok.inj h]
    exact .silent (List.isEmpty_iff.mp hempty)
  · rw [if_neg hempty] at h
    obtain ⟨_, hsplit, h⟩ := exists_of_bind_eq_ok h
    obtain rfl := Except.ok.inj hsplit
    rw [← Except.ok.inj h, List.map_map]
    have hhands : (hands split (t.voiceName number) (t.audible tick)).map
        ((·.hand) ∘ fun hand => (⟨hand, t.program?.map fun program =>
          Sound.ofProgram (some program)⟩ : Line)) =
        hands split (t.voiceName number) (t.audible tick) := List.map_id _
    rw [Track.voiceName] at hhands ⊢
    rw [hhands]
    exact handed_hands _ _ fun hnil => hempty (by rw [hnil]; rfl)

/-- A track has voices only if its notes have lengths. -/
lemma Track.exists_length_of_lines {tick : τ} {split : Setting (Option Int)} {t : Track}
    {number : Nat} {lines : List Line} (h : t.lines tick split number = .ok lines) {n : TrackNote}
    (hn : n ∈ t.notes) : ∃ length, milliseconds tick (n.stop - n.start) = .ok length := by
  obtain ⟨notes, hnotes, -⟩ := exists_of_bind_eq_ok h
  have haudible := (of_filterM_eq_ok (fun _ _ => lasts_eq) hnotes).1 n hn
  obtain ⟨length, hlength, -⟩ := exists_of_bind_eq_ok haudible
  exact ⟨length, hlength⟩

/-- The event of a note plays it. -/
lemma plays_of_event {tick : τ} {pitch : Int → Int} {voice : Nat} {n : TrackNote} {e : Event τ}
    (h : n.event tick pitch voice = .ok e) : Plays tick pitch voice n e := by
  obtain ⟨onset, honset, h⟩ := exists_of_bind_eq_ok h
  obtain ⟨duration, hduration, h⟩ := exists_of_bind_eq_ok h
  obtain ⟨start, hstart, honset⟩ := exists_of_bind_eq_ok honset
  obtain ⟨length, hlength, hduration⟩ := exists_of_bind_eq_ok hduration
  obtain rfl := Except.ok.inj h
  exact ⟨⟨start, hstart, (Except.ok.inj honset).symm⟩,
    ⟨length, hlength, (Except.ok.inj hduration).symm⟩, rfl, rfl⟩

/-- A document that is made from a recording plays it. -/
lemma Recording.exists_playedBy {r : Recording} {split : Option Int} {chromatic : Bool}
    {d : Document τ} (h : r.extract { split := .value split, chromatic } = .ok d) :
    ∃ tick held, r.PlayedBy split (pitchOf { chromatic } d.header.key) tick held d := by
  unfold Recording.extract at h
  split at h
  · cases h
  · obtain ⟨header, -, h⟩ := exists_of_bind_eq_ok h
    obtain ⟨beat, hbeat, h⟩ := exists_of_bind_eq_ok h
    obtain ⟨ticksPerBeat, hticks, h⟩ := exists_of_bind_eq_ok h
    obtain ⟨tick, htick, h⟩ := exists_of_bind_eq_ok h
    obtain ⟨lines, hlines, h⟩ := exists_of_bind_eq_ok h
    obtain ⟨voices, hvoices, h⟩ := exists_of_bind_eq_ok h
    have hd : d.header = header ∧ d.voices = voices ∧
        d.names = lines.flatten.map (·.hand.1) := by
      split at h
      · cases h
      · rw [← Except.ok.inj h]
        exact ⟨rfl, rfl, rfl⟩
    obtain ⟨hheader, rfl, hnames⟩ := hd
    rw [hheader]
    have hheld : (lines.map fun lines => lines.map (·.hand)).flatten =
        lines.flatten.map (·.hand) := List.map_flatten.symm
    have htracks := mapM_eq_ok_iff.mp hlines
    refine ⟨tick, lines.map fun lines => lines.map (·.hand), ?_, fun t ht n hn => ?_, ?_, ?_, ?_⟩
    · rw [hheader, hbeat, hticks]
      exact htick
    · obtain ⟨number, hnumber⟩ := List.mem_iff_getElem?.mp ht
      obtain ⟨lines', -, hlines'⟩ :=
        exists_mem_of_forall₂ htracks.flip (List.mk_mem_zipIdx_iff_getElem?.mpr hnumber)
      exact Track.exists_length_of_lines hlines' hn
    · rw [List.forall₂_map_right_iff]
      exact htracks.imp fun _ _ => Track.handed_of_lines
    · rw [hnames, hheld, List.map_map]
      rfl
    · rw [hheld, List.zipIdx_map, List.forall₂_map_left_iff]
      refine (mapM_eq_ok_iff.mp hvoices).imp fun _ _ hevents => ?_
      exact (mapM_eq_ok_iff.mp hevents).imp fun _ _ => plays_of_event

namespace Recording.PlayedBy

variable {r : Recording} {split : Option Int} {pitch : Int → Int} {tick : τ}
  {held : List (List Hand)} {d : Document τ}

/-- The hands have every audible note of the recording, each once. -/
lemma perm (h : r.PlayedBy split pitch tick held d) :
    (held.flatten.flatMap Prod.snd).Perm (r.tracks.flatMap (Track.audible tick)) := by
  have hrun : ∀ (tracks : List Track) (number : Nat) (held : List (List Hand)),
      List.Forall₂ (fun x hands => Handed split (x.1.voiceName x.2) (x.1.audible tick) hands)
        (tracks.zipIdx number) held →
      (held.flatten.flatMap Prod.snd).Perm (tracks.flatMap (Track.audible tick)) := by
    intro tracks
    induction tracks with
    | nil =>
      intro number held h
      cases h
      exact .refl _
    | cons t rest ih =>
      intro number held h
      rw [List.zipIdx_cons] at h
      obtain _ | ⟨hhands, hrest⟩ := h
      rw [List.flatten_cons, List.flatMap_append, List.flatMap_cons]
      exact hhands.perm.append (ih _ _ hrest)
  exact hrun _ _ _ h.handed

/-- Every hand plays its notes by start, and by key where they start together. -/
lemma pairwise (h : r.PlayedBy split pitch tick held d) {hand : Hand}
    (hhand : hand ∈ held.flatten) : hand.2.Pairwise fun n n' =>
      n.start < n'.start ∨ n.start = n'.start ∧ n.note ≤ n'.note := by
  obtain ⟨hands, hhands, hmem⟩ := List.mem_flatten.mp hhand
  obtain ⟨⟨t, number⟩, -, hhanded⟩ := exists_mem_of_forall₂ h.handed hhands
  exact hhanded.pairwise (t.pairwise_notes.filter _) hmem

end Recording.PlayedBy

/-- Notes are conserved. Every stroke of a key in a track gives one note, which ends with the first
release of the key behind it that ends no earlier stroke, or with the track; and a document that is
made from a recording has one event for every note that is long enough to be heard, in one voice, at
the time and in the length of the note. -/
theorem Recording.notes_conserved (r : Recording)
    (hdelta : ∀ t ∈ r.tracks, ∀ step ∈ t, 0 ≤ step.delta) (split : Option Int) (chromatic : Bool) :
    (∀ t ∈ r.tracks, ∃ ends, t.Paired ends) ∧
      ∀ d : Document τ, r.extract { split := .value split, chromatic } = .ok d →
        ∃ tick held, r.PlayedBy split (pitchOf { chromatic } d.header.key) tick held d ∧
          (held.flatten.flatMap Prod.snd).Perm (r.tracks.flatMap (Track.audible tick)) ∧
          ∀ hand ∈ held.flatten, hand.2.Pairwise fun n n' =>
            n.start < n'.start ∨ n.start = n'.start ∧ n.note ≤ n'.note := by
  refine ⟨fun t ht => t.exists_paired (hdelta t ht), fun d hd => ?_⟩
  obtain ⟨tick, held, h⟩ := exists_playedBy hd
  exact ⟨tick, held, h, h.perm, fun hand => h.pairwise⟩

/-- A track that strikes a key again before it is released, over a lower key. -/
def overlapping : Recording where
  tracks := [[⟨0, .noteOn 0 72 90⟩, ⟨0, .noteOn 0 48 90⟩, ⟨120, .noteOn 0 72 90⟩,
    ⟨120, .noteOff 0 72⟩, ⟨0, .noteOff 0 48⟩, ⟨240, .noteOff 0 72⟩]]

/-- The first stroke of the high key ends with its first release and the second with its second one.
Each hand is a voice. -/
theorem Recording.notes_conserved_overlapping :
    (∀ t ∈ overlapping.tracks, ∀ step ∈ t, 0 ≤ step.delta) ∧
      ∃ d : Document Rat, overlapping.extract { split := .value (some 60) } = .ok d ∧
        d.voices.map (List.map fun e : Event Rat => (e.onset, e.duration)) =
          [[(0, 250), (125, 375)], [(0, 250)]] ∧
        ∃ tick held, overlapping.PlayedBy (some 60) (pitchOf {} d.header.key) tick held d := by
  have hdelta : ∀ t ∈ overlapping.tracks, ∀ step ∈ t, 0 ≤ step.delta := by decide
  have hevents : (do
      let d : Document Rat ← overlapping.extract { split := .value (some 60) }
      return d.voices.map (List.map fun e : Event Rat => (e.onset, e.duration))) =
        .ok [[(0, 250), (125, 375)], [(0, 250)]] := by cbv
  obtain ⟨d, hextract, hevents⟩ := exists_of_bind_eq_ok hevents
  obtain ⟨-, hplayed⟩ := notes_conserved (τ := Rat) overlapping hdelta (some 60) false
  obtain ⟨tick, held, hplayed, -⟩ := hplayed d hextract
  exact ⟨hdelta, d, hextract, Except.ok.inj hevents, tick, held, hplayed⟩

end PatternScore.Midi
