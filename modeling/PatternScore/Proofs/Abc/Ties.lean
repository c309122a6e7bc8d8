import Mathlib
import PatternScore.Proofs.Abc.Voices
import PatternScore.Proofs.Number.Exact
import PatternScore.Proofs.Tiling

/-!
# Tied notes of a voice

A voice of single notes and rests, in which a tie ends only where the note before begins one at the
same step, is read into one event for each run of tied notes and one for each rest, and the events
follow each other without gaps (`Tune.readVoices_ties`). The open ties may hold others, which never
end; what the scan keeps is that a tie that begins at the last note leads to the last event
(`Voice.Tracks`).
-/

namespace PatternScore

/-! ## Runs -/

/-- An item that belongs to the one before is added to the last run. -/
lemma splitBy_concat_of_rel {α : Type} {r : α → α → Bool} {l : List α} {x y : α}
    (hy : y ∈ l.getLast?) (hxy : r y x = true) :
    ∃ runs run, y ∈ run ∧ l.splitBy r = runs ++ [run] ∧
      (l ++ [x]).splitBy r = runs ++ [run ++ [x]] := by
  have hsplit : l.splitBy r ≠ [] := by
    rw [List.splitBy_ne_nil]
    rintro rfl
    cases hy
  obtain ⟨runs, run, hruns⟩ := (List.eq_nil_or_concat (l.splitBy r)).resolve_left hsplit
  rw [List.concat_eq_append] at hruns
  obtain ⟨hflatten, hnil, hchain, hbounds⟩ := List.splitBy_eq_iff.mp hruns
  rw [List.flatten_append, List.flatten_singleton] at hflatten
  have hrun : run ≠ [] := by
    rintro rfl
    exact hnil (List.mem_append_right _ List.mem_cons_self)
  have hlast : run.getLast? = some y := by
    rw [← List.getLast?_append_of_ne_nil runs.flatten hrun, ← hflatten]
    exact hy
  refine ⟨runs, run, List.mem_of_getLast? hlast, hruns,
    List.splitBy_eq_iff.mpr ⟨?_, ?_, ?_, ?_⟩⟩
  · rw [hflatten]
    simp
  · simpa using fun h => hnil (List.mem_append_left _ h)
  · intro m hm
    rcases List.mem_append.mp hm with hm | hm
    · exact hchain m (List.mem_append_left _ hm)
    · rw [List.mem_singleton.mp hm, List.isChain_append]
      refine ⟨hchain run (List.mem_append_right _ List.mem_cons_self), List.isChain_singleton x, ?_⟩
      intro y' hy' x' hx'
      obtain rfl := Option.some.inj (hlast.symm.trans hy')
      obtain rfl := Option.some.inj hx'
      exact hxy
  · rw [List.isChain_append] at hbounds ⊢
    refine ⟨hbounds.1, List.isChain_singleton _, fun m hm m' hm' => ?_⟩
    obtain rfl := Option.some.inj hm'
    obtain ⟨hne, _, hbound⟩ := hbounds.2.2 m hm run rfl
    refine ⟨hne, by simp, ?_⟩
    rwa [List.head_append_of_ne_nil hrun]

namespace Abc

/-! ## Notes and rests that last -/

/-- A note or a rest that lasts. -/
structure Timed where
  /-- How long it lasts. -/
  duration : Rat
  /-- The pitch; a rest has none. -/
  pitch : Option Pitch
  deriving DecidableEq

namespace Timed

/-- A tie ends here. -/
def endsTie (x : Timed) : Bool :=
  x.pitch.any (·.endsTie)

/-- A note is tied to the one before: a tie begins at that one and ends here, at the same step. -/
def isTied (x y : Timed) : Bool :=
  match x.pitch, y.pitch with
  | some p, some q => p.startsTie && q.endsTie && p.step == q.step
  | _, _ => false

/-- A tie ends only at a note that is tied to the one before. -/
def TiesMatch (l : List Timed) : Prop :=
  (∀ x ∈ l.head?, x.endsTie = false) ∧ l.IsChain fun x y => y.endsTie = true → x.isTied y = true

end Timed

/-- The note is a rest or has one pitch. -/
def Note.IsSingle (n : Note Rat) : Prop :=
  n.isRest = true ∨ ∃ x, n.pitches = [.ok x]

/-- The pitch of a note that has one pitch. -/
def Note.pitch? (n : Note Rat) : Option Pitch :=
  if n.isRest then none else (readable n.pitches).head?

/-- The notes and rests of a voice that last, each as long as its tuplet makes it; a quarter note
lasts `beat`, and the notes that come first belong to a tuplet with the factor `tuplet`. -/
def timed (beat : Rat) : Rat → List (Element Rat) → List Timed
  | _, [] => []
  | tuplet, .note n :: rest =>
    let factor := n.tuplet.getD tuplet
    let lasting := n.duration * 4 * beat * factor
    let behind := timed beat (if n.endsTuplet then 1 else factor) rest
    if 0 < lasting then ⟨lasting, n.pitch?⟩ :: behind else behind
  | tuplet, .barLine _ :: rest => timed beat tuplet rest
  | tuplet, .other :: rest => timed beat tuplet rest

/-- An event sounds a run of tied notes, or is a rest. -/
structure Sounds (tonic : Int) (run : List Timed) (e : Event Rat) : Prop where
  /-- It has the degree of each note. -/
  pitch_eq : ∀ x ∈ run, e.pitch = x.pitch.map fun p => p.step - tonic
  /-- It lasts as long as all notes together. -/
  duration_eq : e.duration = (run.map (·.duration)).sum

namespace Timed

variable {l m : List Timed} {x y : Timed}

/-- Where no tie ends, nothing is tied to what is before. -/
lemma isTied_of_endsTie_eq_false (h : x.endsTie = false) (y : Timed) : y.isTied x = false := by
  unfold isTied
  unfold endsTie at h
  cases hx : x.pitch with
  | none => cases y.pitch <;> rfl
  | some q =>
    cases y.pitch with
    | none => rfl
    | some p =>
      rw [hx] at h
      have hq : q.endsTie = false := h
      simp [hq]

/-- Notes that are tied have the same degree. -/
lemma degree_eq_of_isTied (h : x.isTied y = true) (tonic : Int) :
    (x.pitch.map fun p => p.step - tonic) = y.pitch.map fun p => p.step - tonic := by
  unfold isTied at h
  split at h
  · rename_i p q hx hy
    simp only [Bool.and_eq_true, beq_iff_eq] at h
    rw [hx, hy, Option.map_some, Option.map_some, h.2]
  · cases h

/-- Where a tie ends, the note before is tied. -/
lemma TiesMatch.exists_isTied (h : TiesMatch (l ++ x :: m)) (hx : x.endsTie = true) :
    ∃ y ∈ l.getLast?, y.isTied x = true := by
  cases hlast : l.getLast? with
  | none =>
    obtain rfl := List.getLast?_eq_none_iff.mp hlast
    rw [h.1 x rfl] at hx
    cases hx
  | some y => exact ⟨y, rfl, (List.isChain_append.mp h.2).2.2 y hlast x rfl hx⟩

end Timed

/-! ## What the scan keeps -/

namespace Voice

/-- A voice holds what notes and rests that last give, and a tie that begins at the last of them
leads to the last event. -/
structure Tracks (tonic : Int) (l : List Timed) (v : Voice Rat) : Prop where
  /-- There is one event for each run of tied notes. -/
  sounds : List.Forall₂ (Sounds tonic) (l.splitBy Timed.isTied) v.events
  /-- The events follow each other up to the cursor. -/
  tiles : Tiles Event.onset Event.stop 0 v.events v.cursor
  /-- A tie that begins at the last note is open. -/
  tie : ∀ x ∈ l.getLast?, ∀ p ∈ x.pitch, p.startsTie = true →
    v.ties.lookup (p.step - tonic) = some (v.events.length - 1)

variable {v v' : Voice Rat} {l m : List Timed} {x : Timed} {e : Event Rat} {tonic : Int}

/-- A voice that has just begun holds nothing. -/
lemma tracks_start (tonic : Int) : Tracks tonic [] .start where
  sounds := .nil
  tiles := rfl
  tie := nofun

namespace Tracks

/-- What is kept depends on the events, the cursor and the ties alone. -/
lemma congr (h : Tracks tonic l v) (hevents : v'.events = v.events) (hcursor : v'.cursor = v.cursor)
    (hties : v'.ties = v.ties) : Tracks tonic l v' := by
  refine ⟨?_, ?_, ?_⟩
  · rw [hevents]
    exact h.sounds
  · rw [hevents, hcursor]
    exact h.tiles
  · rw [hties, hevents]
    exact h.tie

/-- What is not tied to the note before is an event of its own. -/
lemma attack (h : Tracks tonic l v) (hx : 0 < x.duration) (hnew : x.endsTie = false)
    (hpitch : e.pitch = x.pitch.map fun p => p.step - tonic) (honset : e.onset = v.cursor)
    (hduration : e.duration = x.duration) (hevents : v'.events = v.events ++ [e])
    (hcursor : v'.cursor = v.cursor + x.duration)
    (htie : ∀ p ∈ x.pitch, p.startsTie = true →
      v'.ties.lookup (p.step - tonic) = some v.events.length) : Tracks tonic (l ++ [x]) v' := by
  have hstop : e.stop = v.cursor + x.duration := by
    rw [Event.stop, honset, hduration]
  refine ⟨?_, ?_, ?_⟩
  · rw [hevents, List.splitBy_append fun y _ z hz => ?_]
    · refine List.rel_append h.sounds (.cons ⟨?_, by simp [hduration]⟩ .nil)
      intro z hz
      rw [List.mem_singleton.mp hz, hpitch]
    · obtain rfl := Option.some.inj hz
      exact Timed.isTied_of_endsTie_eq_false hnew y
  · rw [hevents, hcursor, Tiles.concat_iff, hstop, honset]
    exact ⟨h.tiles, lt_add_of_pos_right _ hx, rfl⟩
  · intro z hz p hp hstarts
    rw [List.getLast?_concat] at hz
    obtain rfl := Option.some.inj hz
    rw [htie p hp hstarts, hevents, List.length_append]
    rfl

/-- What is tied to the note before extends the last event. -/
lemma hold (h : Tracks tonic l v) {y : Timed} (hy : y ∈ l.getLast?) (hxy : y.isTied x = true)
    (hx : 0 < x.duration)
    (hevents : v'.events = v.events.modify (v.events.length - 1)
      fun e => { e with duration := v.cursor + x.duration - e.onset })
    (hcursor : v'.cursor = v.cursor + x.duration)
    (htie : ∀ p ∈ x.pitch, p.startsTie = true →
      v'.ties.lookup (p.step - tonic) = some (v.events.length - 1)) :
    Tracks tonic (l ++ [x]) v' := by
  obtain ⟨runs, run, hmem, hruns, hruns'⟩ := splitBy_concat_of_rel hy hxy
  have hsounds := h.sounds
  rw [hruns, forall₂_concat_iff] at hsounds
  obtain ⟨init, last, hv, hinit, hlast⟩ := hsounds
  have htiles := h.tiles
  rw [hv, Tiles.concat_iff] at htiles
  obtain ⟨hbefore, hlasts, hstop⟩ := htiles
  have hmodified : v'.events =
      init ++ [{ last with duration := v.cursor + x.duration - last.onset }] := by
    rw [hevents, hv, List.modify_eq_take_cons_drop (by simp)]
    simp
  -- The last event ends at the cursor, so that extending it adds the length of the note.
  have hends : last.onset + last.duration = v.cursor := hstop
  refine ⟨?_, ?_, ?_⟩
  · rw [hruns', hmodified]
    refine List.rel_append hinit (.cons ⟨fun z hz => ?_, ?_⟩ .nil)
    · rcases List.mem_append.mp hz with hz | hz
      · exact hlast.pitch_eq z hz
      · rw [List.mem_singleton.mp hz]
        exact (hlast.pitch_eq y hmem).trans (Timed.degree_eq_of_isTied hxy tonic)
    · rw [List.map_append, List.sum_append, ← hlast.duration_eq, ← hends]
      simp
      ring
  · rw [hmodified, hcursor, Tiles.concat_iff]
    have hstop' : ({ last with duration := v.cursor + x.duration - last.onset } : Event Rat).stop =
        v.cursor + x.duration := add_sub_cancel _ _
    rw [hstop']
    refine ⟨hbefore, ?_, rfl⟩
    have hlasts' : last.onset < v.cursor := hstop ▸ hlasts
    exact hlasts'.trans (lt_add_of_pos_right _ hx)
  · intro z hz p hp hstarts
    rw [List.getLast?_concat] at hz
    obtain rfl := Option.some.inj hz
    rw [htie p hp hstarts, hmodified, hv, List.length_append, List.length_append]
    rfl

/-- The tie that a note is tied by is open. -/
lemma lookup_eq (h : Tracks tonic l v) {y : Timed} (hy : y ∈ l.getLast?) (hxy : y.isTied x = true)
    {q : Pitch} (hq : x.pitch = some q) :
    v.ties.lookup (q.step - tonic) = some (v.events.length - 1) := by
  have hdegree := Timed.degree_eq_of_isTied hxy tonic
  unfold Timed.isTied at hxy
  split at hxy
  · rename_i p q' hp hq'
    obtain rfl := Option.some.inj (hq.symm.trans hq')
    rw [hp, hq, Option.map_some, Option.map_some] at hdegree
    simp only [Bool.and_eq_true] at hxy
    rw [← Option.some.inj hdegree]
    exact h.tie y hy p hp hxy.1.1
  · cases hxy

/-- A pitch that lasts is taken in. -/
lemma pitch {p : Place Rat} (h : Tracks p.tonic l v) {lasting : Rat} (hlasting : 0 < lasting)
    {u : Voice Rat} (hevents : u.events = v.events) (hties : u.ties = v.ties)
    (hcursor : u.cursor = v.cursor + lasting) (q : Pitch)
    (htied : q.endsTie = true → ∃ y ∈ l.getLast?, y.isTied ⟨lasting, some q⟩ = true) :
    Tracks p.tonic (l ++ [⟨lasting, some q⟩]) (u.pitch p v.cursor lasting q) := by
  cases hends : q.endsTie with
  | true =>
    obtain ⟨y, hy, hxy⟩ := htied hends
    have hlookup := h.lookup_eq hy hxy rfl
    unfold Voice.pitch
    simp only [hends, if_true, hties, hlookup]
    by_cases hstarts : q.startsTie = true
    · rw [if_pos hstarts]
      refine h.hold hy hxy hlasting ?_ hcursor fun q' hq' _ => ?_
      · simp only [extend, hevents, hcursor]
      · obtain rfl := Option.some.inj hq'
        exact List.lookup_cons_self
    · rw [if_neg hstarts]
      refine h.hold hy hxy hlasting ?_ hcursor fun q' hq' hstarts' => ?_
      · simp only [extend, hevents, hcursor]
      · obtain rfl := Option.some.inj hq'
        exact absurd hstarts' hstarts
  | false =>
    unfold Voice.pitch
    simp only [hends, Bool.false_eq_true, if_false, hevents]
    by_cases hstarts : q.startsTie = true
    · rw [if_pos hstarts]
      refine h.attack hlasting hends rfl rfl rfl rfl hcursor fun q' hq' _ => ?_
      obtain rfl := Option.some.inj hq'
      exact List.lookup_cons_self
    · rw [if_neg hstarts]
      refine h.attack hlasting hends rfl rfl rfl rfl hcursor fun q' hq' hstarts' => ?_
      obtain rfl := Option.some.inj hq'
      exact absurd hstarts' hstarts

/-- A note with one pitch or a rest is taken in, if it lasts. -/
lemma note {p : Place Rat} {n : Note Rat} (h : Tracks p.tonic l v) (hn : Takes p v n v')
    (hsingle : n.IsSingle)
    (hties : Timed.TiesMatch (l ++ timed p.beat v.tuplet [.note n] ++ m)) :
    Tracks p.tonic (l ++ timed p.beat v.tuplet [.note n]) v' := by
  have hlasting : n.duration * 4 * p.beat * n.tuplet.getD v.tuplet =
    n.lasting p.beat v.tuplet := rfl
  simp only [timed, hlasting] at hties ⊢
  cases hn with
  | nothing hnothing =>
    have hnone : ¬ 0 < n.lasting p.beat v.tuplet := not_lt.mpr hnothing
    rw [if_neg hnone, List.append_nil]
    exact h.congr rfl rfl rfl
  | rest hlasts hrest =>
    have hpositive : 0 < n.lasting p.beat v.tuplet := not_le.mp hlasts
    have hpitch : n.pitch? = none := if_pos hrest
    rw [if_pos hpositive, hpitch]
    exact h.attack hpositive rfl rfl rfl rfl rfl rfl nofun
  | pitches hlasts hrest hcomplete =>
    have hpositive : 0 < n.lasting p.beat v.tuplet := not_le.mp hlasts
    obtain ⟨q, hq⟩ : ∃ q, n.pitches = [.ok q] := by
      rcases hsingle with hsilent | hq
      · rw [hrest] at hsilent
        cases hsilent
      · exact hq
    have hreadable : readable n.pitches = [q] := by rw [hq]; rfl
    have hpitch : n.pitch? = some q := by rw [Note.pitch?, hrest, hreadable]; rfl
    rw [if_pos hpositive, hpitch] at hties ⊢
    rw [hreadable]
    rw [List.append_assoc] at hties
    exact h.pitch (u := v.past p n) hpositive rfl rfl rfl q fun hends => hties.exists_isTied hends

end Tracks

end Voice

/-! ## A whole voice -/

variable {s : Tune.Setting Rat} {number : Nat} {v v' : Voice Rat} {es : List (Element Rat)}
  {counts : List Nat} {l : List Timed}

/-- A note comes before what is read behind it, in the tuplet that it leaves. -/
lemma timed_note (beat tuplet : Rat) (n : Note Rat) (es : List (Element Rat)) :
    timed beat tuplet (.note n :: es) =
      timed beat tuplet [.note n] ++ timed beat (n.tupletBehind tuplet) es := by
  have hbehind : (if n.endsTuplet then 1 else n.tuplet.getD tuplet) = n.tupletBehind tuplet := rfl
  simp only [timed, hbehind]
  split <;> rfl

/-- A voice that is read holds what its notes and rests give. -/
lemma ReadsAs.tracks (h : ReadsAs s number v es counts v') (hv : v.Tracks s.tonic l)
    (hsingle : ∀ n, .note n ∈ es → n.IsSingle)
    (hties : Timed.TiesMatch (l ++ timed s.beat v.tuplet es)) :
    v'.Tracks s.tonic (l ++ timed s.beat v.tuplet es) := by
  induction h generalizing l with
  | nil => simpa [timed] using hv
  | note first more ih =>
    rw [timed_note, ← List.append_assoc, ← first.tuplet_eq] at hties ⊢
    exact ih (Voice.Tracks.note hv first (hsingle _ List.mem_cons_self) hties)
      (fun n hn => hsingle n (List.mem_cons_of_mem _ hn)) hties
  | @barLine v _ b rest _ more ih =>
    have hv' : (v.barLine s.barLength b).Tracks s.tonic l :=
      hv.congr Voice.barLine_events Voice.barLine_cursor Voice.barLine_ties
    have htuplet : (v.barLine s.barLength b).tuplet = v.tuplet := Voice.barLine_tuplet
    rw [timed, ← htuplet] at hties ⊢
    exact ih hv' (fun n hn => hsingle n (List.mem_cons_of_mem _ hn)) hties
  | other more ih =>
    rw [timed] at hties ⊢
    exact ih hv (fun n hn => hsingle n (List.mem_cons_of_mem _ hn)) hties

/-- In a voice of single notes and rests in which ties end only where the note before begins one at
the same step, each run of tied notes and each rest is one event. The events follow each other
without gaps from the beginning to the cursor, over bar lines and the ends of lines; each has the
degree of its notes and lasts as long as they do together, tuplets counted. If everything written
could be read, the voices can be read; and they go into the document of the tune as they are. -/
theorem Tune.readVoices_ties (t : Tune Rat) (s : Tune.Setting Rat) {number : Nat}
    {place : Nat × Nat} (hplace : t.places[number]? = some place)
    (hsingle : ∀ n, .note n ∈ t.voiceAt place → n.IsSingle)
    (hties : Timed.TiesMatch (timed s.beat 1 (t.voiceAt place))) :
    (t.IsReadable → ∃ voices, t.readVoices s = .ok voices) ∧
    ∀ voices, t.readVoices s = .ok voices → ∃ v, voices[number]? = some v ∧
      List.Forall₂ (Sounds s.tonic) ((timed s.beat 1 (t.voiceAt place)).splitBy Timed.isTied)
        v.events ∧
      Tiles Event.onset Event.stop 0 v.events v.cursor ∧
      ∀ d, t.extract = .ok d → s.Of d.header → d.voices[number]? = some v.events := by
  refine ⟨fun h => h.exists_readVoices s, fun voices hvoices => ?_⟩
  obtain ⟨-, -, hreads⟩ := t.readsAs_of_readVoices hvoices
  obtain ⟨v, counts, hv, hread, -⟩ := hreads number place hplace
  have htracks := hread.tracks (Voice.tracks_start s.tonic) hsingle hties
  refine ⟨v, hv, htracks.sounds, htracks.tiles, fun d hd hs => ?_⟩
  obtain ⟨fields, header, setting, voices', _, -, -, -, hsetting, hvoices', -, rfl⟩ :=
    extract_eq_ok_iff.mp hd
  obtain rfl : s = setting := hsetting.unique hs
  obtain rfl := Except.ok.inj (hvoices.symm.trans hvoices')
  change (voices.map (·.events))[number]? = _
  rw [List.getElem?_map, hv]
  rfl

/-- A note that is tied over a bar line and the end of a line, a tie in a tuplet that is left open,
a rest, and a note without length. -/
def carried : Tune Rat where
  lines := [.ok [.ok { voices := [.ok (before.map .ok)] }], .ok [],
    .ok [.ok { voices := [.ok (behind.map .ok)] }]]
where
  /-- The elements of the first line. -/
  before : List (Element Rat) := [
    .note (sounding 0 (1 / 4) false true), .barLine {}, .note (sounding 0 (1 / 4) true true)]
  /-- The elements of the last line. -/
  behind : List (Element Rat) := [
    .note (sounding 0 (1 / 2) true false),
    .note { sounding 2 (1 / 8) false true with tuplet := some (2 / 3) },
    .note { duration := 1 / 8, isRest := true },
    .note { sounding 2 (1 / 8) false true with endsTuplet := true }, .barLine {},
    .note (sounding 2 0 true true), .other,
    .note (sounding 4 (1 / 4) false false)]
  /-- A note at a step. -/
  sounding (step : Int) (duration : Rat) (endsTie startsTie : Bool) : Note Rat :=
    { duration, pitches := [.ok { step, endsTie, startsTie }] }

/-- In the tune above the tied notes become one event of 2000 milliseconds and the others one each,
and they follow each other up to the end of the voice. -/
theorem Tune.readVoices_ties_carried :
    carried.places[0]? = some (0, 0) ∧ carried.IsReadable ∧
    (∀ n, .note n ∈ carried.voiceAt (0, 0) → n.IsSingle) ∧
    Timed.TiesMatch (timed 500 1 (carried.voiceAt (0, 0))) ∧
    ∃ (d : Document Rat) (v : Voice Rat), carried.extract = .ok d ∧
      d.voices[0]? = some v.events ∧ v.events.map (fun e => (e.duration, e.pitch)) =
        [(2000, some 0), (500 / 3, some 2), (500 / 3, none), (500 / 3, some 2), (500, some 4)] ∧
      Tiles Event.onset Event.stop 0 v.events v.cursor := by
  have hplace : carried.places[0]? = some (0, 0) := rfl
  have hvoice : carried.voiceAt (0, 0) = carried.before ++ carried.behind := rfl
  have hsingle : ∀ n, .note n ∈ carried.voiceAt (0, 0) → n.IsSingle := by
    simp [hvoice, carried.before, carried.behind, carried.sounding, Note.IsSingle]
  have hreadable : carried.IsReadable := by
    refine ⟨⟨rfl, List.forall_mem_cons.mpr ⟨rfl, List.forall_mem_cons.mpr ⟨rfl, nofun⟩⟩⟩, ?_⟩
    intro place hmem n hn hsounds
    have hfirst : place = (0, 0) := List.mem_singleton.mp hmem
    subst hfirst
    obtain hrest | ⟨x, hx⟩ := hsingle n hn
    · rw [hrest] at hsounds
      cases hsounds
    · rw [hx]
      rfl
  have htimed : timed 500 1 (carried.voiceAt (0, 0)) = [
      ⟨500, some { step := 0, startsTie := true }⟩,
      ⟨500, some { step := 0, endsTie := true, startsTie := true }⟩,
      ⟨1000, some { step := 0, endsTie := true }⟩,
      ⟨500 / 3, some { step := 2, startsTie := true }⟩, ⟨500 / 3, none⟩,
      ⟨500 / 3, some { step := 2, startsTie := true }⟩, ⟨500, some { step := 4 }⟩] := by cbv
  have hties : Timed.TiesMatch (timed 500 1 (carried.voiceAt (0, 0))) := by
    rw [htimed]
    simp [Timed.TiesMatch, Timed.endsTie, Timed.isTied]
  have hread : (do
      let d ← carried.extract
      return (d.header.msPerBeat, d.header.barLength, d.header.key.root.letter.step)) =
        .ok (.ok 500, .ok 2000, 0) := by cbv
  obtain ⟨d, hextract, hread⟩ := exists_of_bind_eq_ok hread
  obtain ⟨hbeat, hread⟩ := Prod.mk.inj (Except.ok.inj hread)
  obtain ⟨hlength, htonic⟩ := Prod.mk.inj hread
  obtain ⟨hreads, hevents⟩ := carried.readVoices_ties ⟨500, 2000, 0⟩ hplace hsingle hties
  obtain ⟨voices, hvoices⟩ := hreads hreadable
  obtain ⟨v, -, hsounds, htiles, hdocument⟩ := hevents voices hvoices
  refine ⟨hplace, hreadable, hsingle, hties, d, v, hextract,
    hdocument d hextract ⟨hbeat, hlength, htonic⟩, ?_, htiles⟩
  have hruns : (timed 500 1 (carried.voiceAt (0, 0))).splitBy Timed.isTied = [
      [⟨500, some { step := 0, startsTie := true }⟩,
        ⟨500, some { step := 0, endsTie := true, startsTie := true }⟩,
        ⟨1000, some { step := 0, endsTie := true }⟩],
      [⟨500 / 3, some { step := 2, startsTie := true }⟩], [⟨500 / 3, none⟩],
      [⟨500 / 3, some { step := 2, startsTie := true }⟩], [⟨500, some { step := 4 }⟩]] := by
    rw [htimed]
    rfl
  rw [hruns] at hsounds
  generalize v.events = events at hsounds ⊢
  rcases hsounds with _ | ⟨h₁, _ | ⟨h₂, _ | ⟨h₃, _ | ⟨h₄, _ | ⟨h₅, _ | _⟩⟩⟩⟩⟩
  simp only [List.map_cons, List.map_nil, h₁.pitch_eq _ List.mem_cons_self,
    h₂.pitch_eq _ List.mem_cons_self, h₃.pitch_eq _ List.mem_cons_self,
    h₄.pitch_eq _ List.mem_cons_self, h₅.pitch_eq _ List.mem_cons_self, h₁.duration_eq,
    h₂.duration_eq, h₃.duration_eq, h₄.duration_eq, h₅.duration_eq]
  norm_num

end Abc

end PatternScore
