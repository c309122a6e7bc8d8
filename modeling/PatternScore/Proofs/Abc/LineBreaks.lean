import Mathlib
import PatternScore.Proofs.Abc.Renumbering
import PatternScore.Proofs.Conversion.ChordMarks

/-!
# Line breaks do not matter

The state of a voice is carried over the ends of lines. If all lines with music have the same staves
with the same voices, the tune can be written as one line (`Tune.joined`), with the elements of all
lines in each voice and the key and the meter of the first line at its staves. The places of the
voices and what stands in them stay the same; only the notes are counted in another order. So the
same document comes out up to a one-to-one exchange of chord marks, and the same program, warnings
and errors (`Tune.extract_joined`).
-/

namespace PatternScore.Abc

variable {τ : Type}

/-! ## Parts of parts -/

section Listing

variable {α β : Type} {inner : α → Listing β} {l : Listing α}

/-- What can be read of the parts of a list is what can be read of each part that can. -/
lemma readable_flattened (inner : α → Listing β) (l : Listing α) :
    readable (Tune.flattened inner l) = (readable l).flatMap fun x => readable (inner x) := by
  induction l with
  | nil => rfl
  | cons item rest ih =>
    have hcons : readable (Tune.flattened inner (item :: rest)) =
        readable (Tune.flattened inner [item]) ++ readable (Tune.flattened inner rest) := by
      rw [← readable_append, Tune.flattened, Tune.flattened, Tune.flattened, ← List.flatMap_append]
      rfl
    rw [hcons, ih]
    cases item with
    | ok x => simp [Tune.flattened, readable_cons]
    | error f => rfl

/-- Where every item could be read, flattening is that of plain lists. -/
lemma flattened_map_ok (inner : α → Listing β) (l : List α) :
    Tune.flattened inner (l.map .ok) = l.flatMap inner := by
  rw [Tune.flattened, List.flatMap_map]

/-- A list of parts is complete if the parts could be read and each of them is complete. -/
lemma complete_flattened_iff :
    Complete (Tune.flattened inner l) ↔ Complete l ∧ ∀ x ∈ readable l, Complete (inner x) := by
  simp only [complete_iff, Tune.flattened, List.mem_flatMap, mem_readable]
  constructor
  · intro h
    refine ⟨fun item hitem => ?_, fun x hx item hitem => h item ⟨_, hx, hitem⟩⟩
    cases item with
    | ok x => exact ⟨x, rfl⟩
    | error f =>
      obtain ⟨y, hy⟩ := h (.error f) ⟨_, hitem, List.mem_singleton_self _⟩
      cases hy
  · rintro ⟨hl, hinner⟩ item ⟨part, hpart, hitem⟩
    obtain ⟨x, rfl⟩ := hl part hpart
    exact hinner x hpart item hitem

/-- Items that could be read are numbered. -/
lemma numbered_map_ok (g : Nat → α → β) (xs : List α) :
    ((xs.map .ok : Listing α).zipIdx.map fun x => x.1.map (g x.2)) =
      (xs.zipIdx.map fun x => g x.2 x.1).map .ok := by
  rw [List.zipIdx_map, List.map_map, List.map_map]
  rfl

/-- Numbering the items of a list does not decide whether they could be read. -/
lemma complete_numbered_iff {g : Nat → α → β} :
    Complete (l.zipIdx.map fun x => x.1.map (g x.2)) ↔ Complete l := by
  constructor
  · intro h
    refine complete_iff.mpr fun item hitem => ?_
    obtain ⟨i, hi⟩ := List.mem_iff_getElem?.mp hitem
    obtain ⟨y, hy⟩ := complete_iff.mp h _
      (List.mem_map_of_mem (List.mem_zipIdx_iff_getElem?.mpr hi : (item, i) ∈ l.zipIdx))
    cases item with
    | ok x => exact ⟨x, rfl⟩
    | error f => cases hy
  · intro h
    rw [h, numbered_map_ok]
    exact complete_map_ok _

end Listing

namespace Tune

/-! ## Lines with music -/

/-- The staves of each line that has any. -/
def musicLines (t : Tune τ) : List (List (Staff τ)) :=
  ((readable t.lines).map readable).filter (!·.isEmpty)

/-- How many voices each staff of a line has. -/
def layout (line : List (Staff τ)) : List Nat :=
  line.map (·.voices.length)

/-- All lines with music have the same staves with the same voices. -/
def IsUniform (t : Tune τ) : Prop :=
  ∀ line ∈ t.musicLines, ∀ line' ∈ t.musicLines, layout line = layout line'

/-- The places of the voices of a line. -/
def placesOfLine (line : List (Staff τ)) : List (Nat × Nat) :=
  line.zipIdx.flatMap fun (staff, i) => (List.range staff.voices.length).map (i, ·)

/-- A staff with the elements of a whole tune in its voices. -/
def joinedStaff (t : Tune τ) (i : Nat) (staff : Staff τ) : Staff τ :=
  { staff with
    voices := (List.range staff.voices.length).map fun j => .ok ((t.voiceAt (i, j)).map .ok) }

/-- A line with the elements of a whole tune in its voices. -/
def joinedLine (t : Tune τ) (line : List (Staff τ)) : List (Staff τ) :=
  line.zipIdx.map fun x => t.joinedStaff x.2 x.1

/-- The tune written as one line. -/
def joined (t : Tune τ) : Tune τ :=
  { t with
    lines :=
      match t.musicLines with
      | [] => []
      | first :: _ => [.ok ((t.joinedLine first).map .ok)] }

variable {t : Tune τ} {first : List (Staff τ)} {rest : List (List (Staff τ))}

/-- The places of a line depend on nothing but how many voices each staff has. -/
lemma placesOfLine_eq_of_layout {line line' : List (Staff τ)} (h : layout line = layout line') :
    placesOfLine line = placesOfLine line' := by
  have hplaces : ∀ line : List (Staff τ), placesOfLine line =
      (layout line).zipIdx.flatMap fun x => (List.range x.1).map (x.2, ·) := by
    intro line
    rw [layout, List.zipIdx_map, List.flatMap_map]
    rfl
  rw [hplaces, hplaces, h]

/-- A line has each of its places once. -/
lemma nodup_placesOfLine (line : List (Staff τ)) : (placesOfLine line).Nodup := by
  refine List.nodup_flatMap.mpr ⟨fun x _ => ?_, ?_⟩
  · exact List.nodup_range.map fun j k h => congrArg Prod.snd h
  · have hnumbers : (line.zipIdx.map Prod.snd).Nodup := by
      rw [List.zipIdx_map_snd]
      exact List.nodup_range'
    refine (List.pairwise_map.mp hnumbers).imp fun {x y} hne place hx hy => hne ?_
    obtain ⟨j, -, rfl⟩ := List.mem_map.mp hx
    obtain ⟨k, -, heq⟩ := List.mem_map.mp hy
    exact (congrArg Prod.fst heq).symm

/-- The strands of a staff whose voices could be read. -/
lemma strandsOfStaff_eq {staff : Staff τ} {voices : List (Listing (Element τ))}
    (h : staff.voices = voices.map .ok) (i : Nat) :
    strandsOfStaff i staff =
      (voices.zipIdx.map fun x => (⟨i, x.2, x.1⟩ : Strand τ)).map .ok := by
  rw [strandsOfStaff, h]
  exact numbered_map_ok (fun j elements => (⟨i, j, elements⟩ : Strand τ)) voices

/-- The strands of a line whose staves could be read. -/
lemma strandsOfLine_map_ok (line : List (Staff τ)) :
    strandsOfLine (line.map .ok) = line.zipIdx.flatMap fun x => strandsOfStaff x.2 x.1 := by
  have hstaves := numbered_map_ok (fun (i : Nat) (staff : Staff τ) => (i, staff)) line
  unfold strandsOfLine
  rw [hstaves, flattened_map_ok, List.flatMap_map]

/-- The strands of a staff whose voices could be read stand at its places. -/
lemma map_place_strandsOfStaff {i : Nat} {staff : Staff τ} (h : Complete (strandsOfStaff i staff)) :
    (readable (strandsOfStaff i staff)).map (fun x => (x.staff, x.voice)) =
      (List.range staff.voices.length).map (i, ·) := by
  have hvoices : Complete staff.voices :=
    (complete_numbered_iff (g := fun j elements => (⟨i, j, elements⟩ : Strand τ))).mp h
  have hlength : staff.voices.length = (readable staff.voices).length := by
    rw [hvoices, readable_map_ok, List.length_map]
  rw [strandsOfStaff_eq hvoices, readable_map_ok, List.map_map, hlength, List.range_eq_range',
    ← List.zipIdx_map_snd, List.map_map]
  rfl

/-- A line whose strands could be read has staves that could be read, and its strands stand at its
places. -/
lemma map_place_strandsOfLine {staves : Listing (Staff τ)} (h : Complete (strandsOfLine staves)) :
    Complete staves ∧ (readable (strandsOfLine staves)).map (fun x => (x.staff, x.voice)) =
      placesOfLine (readable staves) := by
  obtain ⟨hnumbered, hinner⟩ := complete_flattened_iff.mp h
  have hstaves : Complete staves :=
    (complete_numbered_iff (g := fun (i : Nat) (staff : Staff τ) => (i, staff))).mp hnumbered
  refine ⟨hstaves, ?_⟩
  obtain ⟨line, rfl⟩ : ∃ line : List (Staff τ), staves = line.map .ok := ⟨_, hstaves⟩
  have hreadable : readable (line.zipIdx.flatMap fun x => strandsOfStaff x.2 x.1) =
      line.zipIdx.flatMap fun x => readable (strandsOfStaff x.2 x.1) := List.filterMap_flatMap
  rw [strandsOfLine_map_ok, hreadable, List.map_flatMap, readable_map_ok]
  refine List.flatMap_congr fun x hx => map_place_strandsOfStaff (hinner (x.2, x.1) ?_)
  have hnumbers := numbered_map_ok (fun (i : Nat) (staff : Staff τ) => (i, staff)) line
  rw [hnumbers, readable_map_ok]
  exact List.mem_map_of_mem hx

/-- The strands of a tune stand at the places of its lines. -/
lemma map_place_strands (h : Complete t.strands) :
    (readable t.strands).map (fun x => (x.staff, x.voice)) = t.musicLines.flatMap placesOfLine := by
  obtain ⟨-, hlines⟩ := complete_flattened_iff.mp h
  have hline : ∀ staves ∈ readable t.lines,
      (readable (strandsOfLine staves)).map (fun x => (x.staff, x.voice)) =
        placesOfLine (readable staves) := fun staves hstaves =>
    (map_place_strandsOfLine (hlines staves hstaves)).2
  -- Lines without staves have no places.
  have hnone : ∀ lines : List (List (Staff τ)),
      (lines.filter (!·.isEmpty)).flatMap placesOfLine = lines.flatMap placesOfLine := by
    intro lines
    induction lines with
    | nil => rfl
    | cons line rest ih => cases line <;> simp [ih, placesOfLine]
  rw [strands, readable_flattened, List.map_flatMap, List.flatMap_congr hline, musicLines, hnone,
    List.flatMap_map]

/-- The places of a tune are those of each of its lines. -/
lemma places_eq (h : Complete t.strands) (huniform : t.IsUniform)
    (hlines : t.musicLines = first :: rest) : t.places = placesOfLine first := by
  rw [places, placesOf, map_place_strands h, hlines, List.flatMap_cons]
  refine eraseDups_append_of_subset (nodup_placesOfLine first) fun place hplace => ?_
  obtain ⟨line, hline, hplace⟩ := List.mem_flatMap.mp hplace
  have hlayout : layout first = layout line := by
    refine huniform first ?_ line ?_ <;> simp [hlines, hline]
  rwa [placesOfLine_eq_of_layout hlayout]

/-! ## The joined tune -/

/-- All that a tune holds of the voice at a place. -/
def joinedStrand (t : Tune τ) (place : Nat × Nat) : Strand τ :=
  ⟨place.1, place.2, (t.voiceAt place).map .ok⟩

/-- A joined staff holds for each of its voices one strand with all elements of that voice. -/
lemma strandsOfStaff_joinedStaff (t : Tune τ) (i : Nat) (staff : Staff τ) :
    strandsOfStaff i (t.joinedStaff i staff) =
      (((List.range staff.voices.length).map (i, ·)).map t.joinedStrand).map .ok := by
  have hnumbers : (List.range staff.voices.length).zipIdx =
      (List.range staff.voices.length).map fun j => (j, j) :=
    List.ext_getElem (by simp) (by simp)
  refine (strandsOfStaff_eq (List.map_map (g := Except.ok)).symm i).trans ?_
  rw [List.zipIdx_map, hnumbers]
  simp only [List.map_map]
  rfl

/-- The joined tune is one line, if there is any music. -/
lemma lines_joined (hlines : t.musicLines = first :: rest) :
    t.joined.lines = [(t.joinedLine first).map .ok].map .ok := by
  rw [joined]
  simp only [hlines]
  rfl

/-- The strands of the joined tune are those of its line, one for each place. -/
lemma strands_joined (hlines : t.musicLines = first :: rest) :
    t.joined.strands = ((placesOfLine first).map t.joinedStrand).map .ok := by
  have hnumbers : (t.joinedLine first).zipIdx =
      first.zipIdx.map fun x => (t.joinedStaff x.2 x.1, x.2) :=
    List.ext_getElem (by simp [joinedLine]) (by simp [joinedLine])
  rw [strands, lines_joined hlines, flattened_map_ok, List.flatMap_singleton, strandsOfLine_map_ok,
    hnumbers, List.flatMap_map, placesOfLine, List.map_flatMap, List.map_flatMap]
  exact List.flatMap_congr fun x _ => t.strandsOfStaff_joinedStaff x.2 x.1

/-- The joined tune has the places of the first line with music. -/
lemma places_joined (hlines : t.musicLines = first :: rest) :
    t.joined.places = placesOfLine first := by
  have hplaces := eraseDups_append_of_subset (nodup_placesOfLine first) (List.nil_subset _)
  rw [List.append_nil] at hplaces
  rw [places, placesOf, strands_joined hlines, readable_map_ok, List.map_map]
  exact (congrArg List.eraseDups (List.map_id _)).trans hplaces

/-- The voice at a place is in the joined tune what it is in the tune. -/
lemma voiceAt_joined (hlines : t.musicLines = first :: rest) {place : Nat × Nat}
    (hplace : place ∈ placesOfLine first) : t.joined.voiceAt place = t.voiceAt place := by
  rw [voiceAt, elementsAt, strands_joined hlines, readable_map_ok, List.filter_map]
  have hcomp : ((fun x : Strand τ => decide ((x.staff, x.voice) = place)) ∘ t.joinedStrand) =
      fun place' => decide (place' = place) := rfl
  rw [hcomp, List.filter_eq, List.count_eq_one_of_mem (nodup_placesOfLine first) hplace]
  exact (List.flatMap_singleton _ _).trans (readable_map_ok _)

/-- The joined tune is made of what could be read, so all of it can be. -/
lemma isComplete_joined (hlines : t.musicLines = first :: rest) : t.joined.IsComplete := by
  refine ⟨?_, ?_⟩
  · rw [strands_joined hlines]
    exact complete_map_ok _
  · intro x hx
    rw [strands_joined hlines, readable_map_ok] at hx
    obtain ⟨place, -, rfl⟩ := List.mem_map.mp hx
    exact complete_map_ok _

/-! ## The header -/

/-- A tune that has music begins with the first staff of its first line with music. -/
lemma exists_firstStaff (hmusic : t.hasMusic = .ok true) (h : Complete t.strands) :
    ∃ staff more rest, t.musicLines = (staff :: more) :: rest ∧ t.firstStaff = .ok staff := by
  obtain ⟨-, hinner⟩ := complete_flattened_iff.mp h
  have hstaves : ∀ staves ∈ readable t.lines, Complete staves :=
    fun staves hstaves => (map_place_strandsOfLine (hinner staves hstaves)).1
  unfold hasMusic at hmusic
  unfold musicLines firstStaff
  clear hinner h
  generalize t.lines = lines at hmusic hstaves ⊢
  induction lines with
  | nil => cases hmusic
  | cons line rest ih =>
    cases line with
    | error f => cases hmusic
    | ok staves =>
      obtain ⟨hfirst, hrest⟩ := List.forall_mem_cons.mp hstaves
      cases staves with
      | nil => exact ih hmusic hrest
      | cons item more =>
        obtain ⟨staff, rfl⟩ := complete_iff.mp hfirst item List.mem_cons_self
        exact ⟨staff, readable more, _, rfl, rfl⟩

/-- The joined tune has music if its line has a staff. -/
lemma hasMusic_joined (hlines : t.musicLines = first :: rest) (hfirst : first ≠ []) :
    t.joined.hasMusic = .ok true := by
  obtain ⟨staff, more, rfl⟩ := List.exists_cons_of_ne_nil hfirst
  rw [hasMusic, lines_joined hlines]
  rfl

variable [Scalar τ]

/-- The joined tune keeps the first staff, and with it the header. -/
lemma headerOf_joined {staff : Staff τ} {more : List (Staff τ)}
    (hlines : t.musicLines = (staff :: more) :: rest) (hstaff : t.firstStaff = .ok staff)
    (fields : Header) : t.joined.headerOf fields = t.headerOf fields := by
  have hfirst : t.joined.firstStaff = .ok (t.joinedStaff 0 staff) := by
    rw [firstStaff, lines_joined hlines]
    rfl
  have htitle : t.joined.title = t.title := rfl
  have htempo : t.joined.tempo = t.tempo := rfl
  rw [headerOf, headerOf, hfirst, hstaff, htitle, htempo]
  rfl

/-! ## The document -/

/-- Line breaks do not matter. If a document can be taken from a tune whose lines with music all
have the same staves with the same voices, the same one is taken from the tune written as one line,
up to a one-to-one exchange of chord marks, and it converts to the same text, warnings and
errors. -/
theorem extract_joined {d : Document τ} (h : t.extract = .ok d) (huniform : t.IsUniform) :
    ∃ rename : Equiv.Perm ChordMark, t.joined.extract = .ok (d.mapChords rename) ∧
      ∀ policy c, Conversion.run policy c t.joined.extract = Conversion.run policy c t.extract := by
  obtain ⟨fields, header, setting, voices, number, hmusic, hfields, hheader, hsetting, hvoices,
    hnumber, rfl⟩ := extract_eq_ok_iff.mp h
  obtain ⟨hcomplete, -, hreads⟩ := t.readsAs_of_readVoices hvoices
  obtain ⟨staff, more, rest, hlines, hstaff⟩ := exists_firstStaff hmusic hcomplete.strands
  have hplaces := places_eq hcomplete.strands huniform hlines
  have hsame : ∀ place ∈ t.places, t.joined.voiceAt place = t.voiceAt place :=
    fun place hplace => voiceAt_joined hlines (hplaces ▸ hplace)
  have hplaces' : t.joined.places = t.places := (places_joined hlines).trans hplaces.symm
  -- Each voice of the joined tune is read as it is read among the lines.
  obtain ⟨voices', hvoices'⟩ := t.joined.exists_readVoices (s := setting) (isComplete_joined hlines)
    fun place hplace => by
      rw [hplaces'] at hplace
      obtain ⟨i, hi⟩ := List.mem_iff_getElem?.mp hplace
      obtain ⟨v, counts, -, hread, -⟩ := hreads i place hi
      exact ⟨i, counts, v, (hsame place hplace).symm ▸ hread⟩
  obtain ⟨rename, rfl⟩ := exists_rename hplaces' hsame hvoices hvoices'
  have hextract : t.joined.extract =
      .ok ((t.documentOf fields header voices number).mapChords rename) := by
    refine extract_eq_ok_iff.mpr ⟨fields, header, setting, _, number,
      hasMusic_joined hlines (List.cons_ne_nil _ _), hfields,
      (headerOf_joined hlines hstaff fields).trans hheader, hsetting, hvoices', hnumber, ?_⟩
    simp only [documentOf, Document.mapChords, List.length_map, List.map_map, List.head?_map,
      Option.map_map]
    rfl
  refine ⟨rename, hextract, fun policy c => ?_⟩
  rw [hextract, h]
  exact Conversion.ofDocument_mapChords policy c _ rename.injective

end Tune

/-- Two voices on two lines with a line of text between them. The first voice holds a chord. -/
def duet : Tune Rat where
  lines := [music [sounding [0], sounding [0, 2]] [sounding [4]], .ok [],
    music [sounding [4]] [sounding [2]]]
where
  /-- A line of one staff with two voices. -/
  music (first second : List (Element Rat)) : Except Failure (Listing (Staff Rat)) :=
    .ok [.ok { voices := [.ok (first.map .ok), .ok (second.map .ok)] }]
  /-- A half note at some steps. -/
  sounding (steps : List Int) : Element Rat :=
    .note { duration := 1 / 2, pitches := steps.map fun step => .ok { step } }

/-- The third chord of the first voice is the fourth of the tune, and the third of the joined
one. -/
theorem Tune.extract_joined_duet :
    duet.IsUniform ∧ ∃ (d : Document Rat) (rename : Equiv.Perm ChordMark),
      duet.extract = .ok d ∧ duet.joined.extract = .ok (d.mapChords rename) ∧
      d.voices.map (List.map Event.chord) =
        [[some (.ofVoice 0 1), some (.ofVoice 0 2), some (.ofVoice 0 2), some (.ofVoice 0 4)],
          [some (.ofVoice 1 3), some (.ofVoice 1 5)]] ∧
      (d.mapChords rename).voices.map (List.map Event.chord) =
        [[some (.ofVoice 0 1), some (.ofVoice 0 2), some (.ofVoice 0 2), some (.ofVoice 0 3)],
          [some (.ofVoice 1 4), some (.ofVoice 1 5)]] ∧
      ∀ policy c,
        Conversion.run policy c duet.joined.extract = Conversion.run policy c duet.extract := by
  have huniform : duet.IsUniform := by
    have hlines : duet.musicLines.map layout = [[2], [2]] := rfl
    have hlayout : ∀ line ∈ duet.musicLines, layout line = [2] := by
      intro line hline
      have hmem : layout line ∈ duet.musicLines.map layout := List.mem_map_of_mem hline
      rw [hlines] at hmem
      simpa using hmem
    exact fun line hline line' hline' => (hlayout line hline).trans (hlayout line' hline').symm
  have hmarks : (do
      let d ← duet.extract
      return d.voices.map (List.map Event.chord)) =
        .ok [[some (.ofVoice 0 1), some (.ofVoice 0 2), some (.ofVoice 0 2), some (.ofVoice 0 4)],
          [some (.ofVoice 1 3), some (.ofVoice 1 5)]] := by cbv
  have hmarks' : (do
      let d ← duet.joined.extract
      return d.voices.map (List.map Event.chord)) =
        .ok [[some (.ofVoice 0 1), some (.ofVoice 0 2), some (.ofVoice 0 2), some (.ofVoice 0 3)],
          [some (.ofVoice 1 4), some (.ofVoice 1 5)]] := by cbv
  obtain ⟨d, hextract, hmarks⟩ := exists_of_bind_eq_ok hmarks
  obtain ⟨rename, hjoined, hrun⟩ := duet.extract_joined hextract huniform
  rw [hjoined] at hmarks'
  exact ⟨huniform, d, rename, hextract, hjoined, Except.ok.inj hmarks, Except.ok.inj hmarks', hrun⟩

end PatternScore.Abc
