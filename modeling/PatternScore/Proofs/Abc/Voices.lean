import PatternScore.Proofs.Abc.Reading

/-!
# The voices of a tune

The strands of a tune are read one after another, each into the voice of its place. What becomes of
a voice is therefore what its own elements make of it (`Tune.voiceAt`), whatever stands between
them: `Tune.readsAs_of_readVoices` says what the voices are that are read, `Tune.exists_readVoices`
that they are read if each of them can be read by itself. What carries this is an invariant of the
scan (`Tune.Scan.Holds`). `Tune.extract_eq_ok_iff` puts the document of a tune together from them.

`Reads` leaves open the number of a voice and the counts of notes, and `Tune.exists_reads` says that
the marks and the upbeat of a document are read in this way from the voice that the tune begins
with.
-/

namespace PatternScore.Abc

variable {τ : Type}

/-! ## Places -/

/-- The elements that strands hold of the voice at a place. -/
def elementsAt (place : Nat × Nat) (strands : List (Tune.Strand τ)) : List (Element τ) :=
  (strands.filter fun x => (x.staff, x.voice) = place).flatMap fun x => readable x.elements

/-- The places of strands, each once, in the order in which they come up. -/
def placesOf (strands : List (Tune.Strand τ)) : List (Nat × Nat) :=
  (strands.map fun x => (x.staff, x.voice)).eraseDups

namespace Tune

/-- The places of the voices of a tune, in the order of their numbers. -/
def places (t : Tune τ) : List (Nat × Nat) :=
  placesOf (readable t.strands)

/-- The elements of the voice at a place of a tune. -/
def voiceAt (t : Tune τ) (place : Nat × Nat) : List (Element τ) :=
  elementsAt place (readable t.strands)

/-- The elements of the voice that a tune begins with. -/
def firstVoice (t : Tune τ) : List (Element τ) :=
  match readable t.strands with
  | [] => []
  | x :: rest => elementsAt (x.staff, x.voice) (x :: rest)

end Tune

section Places

variable {strands : List (Tune.Strand τ)} {x : Tune.Strand τ} {place : Nat × Nat}

/-- The elements at a place are those of the first strands and then those of the others. -/
lemma elementsAt_append (place : Nat × Nat) (strands strands' : List (Tune.Strand τ)) :
    elementsAt place (strands ++ strands') =
      elementsAt place strands ++ elementsAt place strands' := by
  rw [elementsAt, List.filter_append, List.flatMap_append]
  rfl

/-- A strand has elements at its own place only. -/
lemma elementsAt_single (place : Nat × Nat) (x : Tune.Strand τ) :
    elementsAt place [x] = if (x.staff, x.voice) = place then readable x.elements else [] := by
  by_cases h : (x.staff, x.voice) = place <;> simp [elementsAt, h]

/-- The places of strands are those at which one of them is. -/
lemma mem_placesOf : place ∈ placesOf strands ↔ ∃ x ∈ strands, (x.staff, x.voice) = place := by
  rw [placesOf, List.mem_eraseDups, List.mem_map]

/-- One more item is kept at the end if it is not there yet. -/
lemma eraseDups_concat {α : Type} [BEq α] [LawfulBEq α] (l : List α) (a : α) :
    (l ++ [a]).eraseDups = if l.contains a then l.eraseDups else l.eraseDups ++ [a] := by
  rw [List.eraseDups_append, List.removeAll, List.filter_singleton, List.elem_eq_contains]
  cases l.contains a with
  | true => exact List.append_nil _
  | false => rfl

/-- A list without its duplicates has none. -/
lemma nodup_eraseDups {α : Type} [BEq α] [LawfulBEq α] (l : List α) : l.eraseDups.Nodup := by
  induction l using List.reverseRecOn with
  | nil => exact List.nodup_nil
  | append_singleton l a ih =>
    rw [eraseDups_concat]
    split
    · exact ih
    · rename_i hnew
      have hnew' : ∀ b ∈ l.eraseDups, b ≠ a := by
        rintro b hb rfl
        exact hnew (List.contains_iff_mem.mpr (List.mem_eraseDups.mp hb))
      refine List.nodup_append.mpr ⟨ih, List.nodup_singleton a, fun b hb c hc => ?_⟩
      rw [List.mem_singleton.mp hc]
      exact hnew' b hb

/-- What is there already is not kept again. -/
lemma eraseDups_append_of_subset {α : Type} [BEq α] [LawfulBEq α] {l l' : List α} (hl : l.Nodup)
    (h : l' ⊆ l) : (l ++ l').eraseDups = l := by
  have hself : l.eraseDups = l := by
    clear h
    induction l with
    | nil => rfl
    | cons a rest ih =>
      obtain ⟨ha, hrest⟩ := List.nodup_cons.mp hl
      have hothers : rest.filter (fun b => !b == a) = rest :=
        List.filter_eq_self.mpr fun b hb => by simpa using ne_of_mem_of_not_mem hb ha
      rw [List.eraseDups_cons, hothers, ih hrest]
  have hnone : l'.removeAll l = [] := List.filter_eq_nil_iff.mpr fun a ha => by
    simp [h ha]
  rw [List.eraseDups_append, hself, hnone, List.eraseDups_nil, List.append_nil]

/-- One more strand adds its place at the end, unless it is there. -/
lemma placesOf_concat (strands : List (Tune.Strand τ)) (x : Tune.Strand τ) :
    placesOf (strands ++ [x]) =
      if (x.staff, x.voice) ∈ placesOf strands then placesOf strands
      else placesOf strands ++ [(x.staff, x.voice)] := by
  simp only [placesOf, List.map_append, List.map_singleton, eraseDups_concat, List.contains_iff_mem,
    List.mem_eraseDups]

/-- No place is listed twice. -/
lemma nodup_placesOf (strands : List (Tune.Strand τ)) : (placesOf strands).Nodup :=
  nodup_eraseDups _

/-- There is nothing at other places. -/
lemma elementsAt_eq_nil (h : place ∉ placesOf strands) : elementsAt place strands = [] := by
  rw [elementsAt, List.filter_eq_nil_iff.mpr, List.flatMap_nil]
  intro x hx hplace
  exact h (mem_placesOf.mpr ⟨x, hx, of_decide_eq_true hplace⟩)

/-- The voice that a tune begins with is the one at its first place. -/
lemma Tune.firstVoice_eq (t : Tune τ) :
    t.firstVoice = (t.places.head?.map t.voiceAt).getD [] := by
  unfold Tune.firstVoice Tune.places Tune.voiceAt
  cases readable t.strands with
  | nil => rfl
  | cons x rest =>
    rw [placesOf, List.map_cons, List.eraseDups_cons]
    rfl

end Places

/-! ## All voices -/

/-- An entry that is looked up stands where its key is searched for. -/
lemma exists_lookup_eq {κ β : Type} [BEq κ] [LawfulBEq κ] {entries : List (κ × β)} {key : κ}
    (h : key ∈ entries.map (·.1)) :
    ∃ x, entries.lookup key = some x ∧ entries[entries.findIdx (·.1 == key)]? = some (key, x) := by
  induction entries with
  | nil => cases h
  | cons entry rest ih =>
    obtain ⟨k, x⟩ := entry
    rw [List.findIdx_cons, List.lookup_cons]
    by_cases hk : k = key
    · subst hk
      exact ⟨x, by simp⟩
    · obtain ⟨y, hlookup, hget⟩ := ih (by simpa [Ne.symm hk] using h)
      have hsearch : (k == key) = false := beq_false_of_ne hk
      have hlook : (key == k) = false := beq_false_of_ne (Ne.symm hk)
      exact ⟨y, by simpa [hlook] using hlookup, by simpa [hsearch] using hget⟩

/-- An entry that is replaced keeps its key. -/
lemma keys_modify {κ β : Type} (entries : List (κ × β)) (i : Nat) (x : β) :
    (entries.modify i fun (key, _) => (key, x)).map (·.1) = entries.map (·.1) := by
  refine List.ext_getElem? fun j => ?_
  rw [List.getElem?_map, List.getElem?_map, List.getElem?_modify]
  cases entries[j]? with
  | none => rfl
  | some entry => by_cases hij : i = j <;> simp [hij]

variable [Scalar τ] {s : Tune.Setting τ} {number : Nat} {v v' : Voice τ} {es : List (Element τ)}
  {counts : List Nat}

/-- A voice is read from its elements, each of its notes behind more notes of the tune than the one
before, and the last of them behind fewer than `notes`. -/
def ReadUpTo (s : Tune.Setting τ) (number notes : Nat) (es : List (Element τ)) (v : Voice τ) :
    Prop :=
  ∃ counts, ReadsAs s number .start es counts v ∧ counts.Pairwise (· < ·) ∧
    ∀ count ∈ counts, count < notes

namespace ReadUpTo

variable {notes notes' : Nat}

/-- A voice of which nothing is read is a new one. -/
lemma nil (s : Tune.Setting τ) (number notes : Nat) : ReadUpTo s number notes [] .start :=
  ⟨[], .nil _, .nil, nofun⟩

/-- Counting on keeps what was read. -/
lemma mono (h : ReadUpTo s number notes es v) (hle : notes ≤ notes') :
    ReadUpTo s number notes' es v := by
  obtain ⟨counts, hreads, hordered, hbelow⟩ := h
  exact ⟨counts, hreads, hordered, fun count hcount => (hbelow count hcount).trans_le hle⟩

/-- More elements are read. -/
lemma foldlM {elements : Listing (Element τ)} (h : ReadUpTo s number notes es v)
    (hread : elements.foldlM (fun read e => do Tune.element s number read (← e)) (v, notes) =
      .ok (v', notes')) :
    ReadUpTo s number notes' (es ++ readable elements) v' ∧ notes ≤ notes' := by
  obtain ⟨old, hold, hascends, hbelow⟩ := h
  obtain ⟨new, hnew, hordered, hbounds, hle⟩ := exists_readsAs_of_foldlM hread
  refine ⟨⟨old ++ new, hold.append hnew, List.pairwise_append.mpr ⟨hascends, hordered, ?_⟩, ?_⟩,
    hle⟩
  · exact fun count hcount count' hcount' =>
      (hbelow count hcount).trans_le (hbounds count' hcount').1
  · intro count hcount
    rcases List.mem_append.mp hcount with hcount | hcount
    · exact (hbelow count hcount).trans_le hle
    · exact (hbounds count hcount).2

end ReadUpTo

namespace Tune

variable {t : Tune τ} {scan scan' : Scan τ} {places : List (Nat × Nat)}
  {strands before : List (Strand τ)} {x : Strand τ}

/-- A scan holds the voices at some places, as they are read from some strands. -/
structure Scan.Holds (s : Setting τ) (places : List (Nat × Nat)) (strands : List (Strand τ))
    (scan : Scan τ) : Prop where
  /-- The voices stand at the places. -/
  places_eq : scan.voices.map (·.1) = places
  /-- No two voices are at one place. -/
  nodup : places.Nodup
  /-- All elements could be read. -/
  complete : ∀ x ∈ strands, Complete x.elements
  /-- Each voice is read from the elements of its place. -/
  reads : ∀ i place v, scan.voices[i]? = some (place, v) →
    ReadUpTo s i scan.notes (elementsAt place strands) v

namespace Scan.Holds

/-- Before the first strand the scan holds no voices. -/
lemma nil (s : Setting τ) :
    Scan.Holds s (placesOf ([] : List (Strand τ))) [] ({} : Scan τ) :=
  ⟨rfl, List.nodup_nil, nofun, nofun⟩

/-- Different voices are at different places. -/
lemma place_ne (h : scan.Holds s places strands) {i j : Nat} {place place' : Nat × Nat}
    (hi : scan.voices[i]? = some (place, v)) (hj : scan.voices[j]? = some (place', v'))
    (hij : i ≠ j) : place ≠ place' := by
  rintro rfl
  have hplaces : places[i]? = places[j]? := by
    rw [← h.places_eq, List.getElem?_map, List.getElem?_map, hi, hj]
    rfl
  have hlt : i < places.length := by
    rw [← h.places_eq, List.length_map]
    exact (List.getElem?_eq_some_iff.mp hi).1
  exact hij ((List.getElem?_inj hlt h.nodup).mp hplaces)

/-- The voice of the next strand is there, and nothing is read into it if it is new. -/
lemma withVoice (h : scan.Holds s (placesOf before) before) (x : Strand τ) :
    (scan.withVoice (x.staff, x.voice)).Holds s (placesOf (before ++ [x])) before := by
  have hthere : (scan.voices.lookup (x.staff, x.voice)).isSome ↔
      (x.staff, x.voice) ∈ placesOf before := by
    rw [List.lookup_isSome_iff, ← h.places_eq, List.mem_map]
    simp only [beq_iff_eq, eq_comm (a := (x.staff, x.voice))]
  have hnodup := nodup_placesOf (before ++ [x])
  rw [placesOf_concat] at hnodup ⊢
  unfold Scan.withVoice
  by_cases hplace : (x.staff, x.voice) ∈ placesOf before
  · rw [if_pos hplace] at hnodup ⊢
    rw [if_pos (hthere.mpr hplace)]
    exact h
  · rw [if_neg hplace] at hnodup ⊢
    rw [if_neg (mt hthere.mp hplace)]
    refine ⟨by rw [List.map_append, h.places_eq]; rfl, hnodup, h.complete, ?_⟩
    intro i place v hi
    rw [List.getElem?_append] at hi
    split at hi
    · exact h.reads i place v hi
    · obtain ⟨rfl, rfl⟩ := Prod.mk.inj (List.mem_singleton.mp (List.mem_of_getElem? hi))
      rw [elementsAt_eq_nil hplace]
      exact .nil s i _

/-- The voice at a place is found, and stands where it is searched for. -/
lemma exists_voice (h : scan.Holds s places strands) {place : Nat × Nat} (hplace : place ∈ places) :
    ∃ v, scan.voices.lookup place = some v ∧
      scan.voices[scan.voices.findIdx (·.1 == place)]? = some (place, v) :=
  exists_lookup_eq (h.places_eq ▸ hplace)

/-- A strand is read into the voice of its place. -/
lemma strand (h : scan.Holds s (placesOf before) before) (hx : Tune.strand s scan x = .ok scan') :
    scan'.Holds s (placesOf (before ++ [x])) (before ++ [x]) := by
  have hwith := h.withVoice x
  obtain ⟨⟨after, notes⟩, hread, hx⟩ := exists_of_bind_eq_ok hx
  obtain rfl := Except.ok.inj hx
  generalize hplace : (x.staff, x.voice) = place at *
  have hmem : place ∈ placesOf (before ++ [x]) :=
    mem_placesOf.mpr ⟨x, List.mem_append_right _ List.mem_cons_self, hplace⟩
  obtain ⟨v, hlookup, hget⟩ := hwith.exists_voice hmem
  generalize scan.withVoice place = with' at *
  generalize with'.voices.findIdx (·.1 == place) = number at *
  rw [hlookup, Option.getD_some] at hread
  obtain ⟨hafter, hle⟩ := (hwith.reads _ _ _ hget).foldlM hread
  refine ⟨?_, hwith.nodup, ?_, ?_⟩
  · rw [keys_modify, hwith.places_eq]
  · intro y hy
    rcases List.mem_append.mp hy with hy | hy
    · exact hwith.complete y hy
    · rw [List.mem_singleton.mp hy]
      exact complete_of_foldlM hread
  · intro i other v' hi
    rw [List.getElem?_modify] at hi
    rw [elementsAt_append, elementsAt_single, hplace]
    by_cases hnumber : number = i
    · subst hnumber
      rw [hget] at hi
      obtain ⟨rfl, rfl⟩ := Prod.mk.inj (Option.some.inj (by simpa using hi))
      rw [if_pos rfl]
      exact hafter
    · have hi' : with'.voices[i]? = some (other, v') := by simpa [hnumber] using hi
      rw [if_neg (hwith.place_ne hget hi' hnumber), List.append_nil]
      exact (hwith.reads _ _ _ hi').mono hle

/-- Strands are read one after another. -/
lemma foldlM {items : Listing (Strand τ)} (h : scan.Holds s (placesOf before) before)
    (hread : items.foldlM (fun scan x => do Tune.strand s scan (← x)) scan = .ok scan') :
    scan'.Holds s (placesOf (before ++ readable items)) (before ++ readable items) := by
  induction items generalizing scan before with
  | nil =>
    obtain rfl := Except.ok.inj hread
    simpa [readable] using h
  | cons item rest ih =>
    rw [List.foldlM_cons] at hread
    obtain ⟨between, hitem, hrest⟩ := exists_of_bind_eq_ok hread
    obtain ⟨x, rfl, hx⟩ := exists_of_bind_eq_ok hitem
    have hdone := ih (h.strand hx) hrest
    rwa [List.append_assoc] at hdone

/-- A complete strand can be read if the voice of its place can be read by itself. -/
lemma exists_strand (h : scan.Holds s (placesOf before) before) (hx : Complete x.elements)
    {number : Nat} {counts : List Nat} {u : Voice τ}
    (hvoice : ReadsAs s number .start (elementsAt (x.staff, x.voice) (before ++ [x])) counts u) :
    ∃ scan', Tune.strand s scan x = .ok scan' := by
  have hwith := h.withVoice x
  have hmem : (x.staff, x.voice) ∈ placesOf (before ++ [x]) :=
    mem_placesOf.mpr ⟨x, List.mem_append_right _ List.mem_cons_self, rfl⟩
  obtain ⟨v, hlookup, hget⟩ := hwith.exists_voice hmem
  obtain ⟨old, hold, -, -⟩ := hwith.reads _ _ _ hget
  rw [elementsAt_append, elementsAt_single, if_pos rfl] at hvoice
  obtain ⟨_, _, between, hbefore, hbehind⟩ := hvoice.exists_of_append
  obtain ⟨⟨after, notes⟩, hread⟩ := hbehind.exists_foldlM (hbefore.tuplet_eq hold rfl)
    ((scan.withVoice (x.staff, x.voice)).voices.findIdx (·.1 == (x.staff, x.voice)))
    (scan.withVoice (x.staff, x.voice)).notes
  rw [← hx] at hread
  unfold Tune.strand
  simp only [hlookup, Option.getD_some, hread]
  exact ⟨_, rfl⟩

/-- Complete strands can be read if every voice can be read by itself. -/
lemma exists_foldlM (h : scan.Holds s (placesOf before) before)
    (hcomplete : ∀ x ∈ strands, Complete x.elements)
    (hvoices : ∀ place ∈ placesOf (before ++ strands), ∃ number counts u,
      ReadsAs s number .start (elementsAt place (before ++ strands)) counts u) :
    ∃ scan', (strands.map .ok).foldlM (fun scan x => do Tune.strand s scan (← x)) scan =
      (.ok scan' : Except Failure (Scan τ)) := by
  induction strands generalizing scan before with
  | nil => exact ⟨scan, rfl⟩
  | cons x rest ih =>
    obtain ⟨hx, hrest⟩ := List.forall_mem_cons.mp hcomplete
    rw [List.append_cons] at hvoices
    obtain ⟨number, counts, u, hvoice⟩ := hvoices (x.staff, x.voice)
      (mem_placesOf.mpr ⟨x, by simp, rfl⟩)
    rw [elementsAt_append] at hvoice
    obtain ⟨_, _, _, hfirst, -⟩ := hvoice.exists_of_append
    obtain ⟨between, hbetween⟩ := h.exists_strand hx hfirst
    obtain ⟨scan', hscan'⟩ := ih (h.strand hbetween) hrest hvoices
    refine ⟨scan', ?_⟩
    rw [List.map_cons, List.foldlM_cons]
    change Except.bind (Tune.strand s scan x) _ = _
    rw [hbetween]
    exact hscan'

end Scan.Holds

/-- Every part of the voices of a tune could be read, pitches apart. -/
structure IsComplete (t : Tune τ) : Prop where
  /-- The lines, the staves and the voices could be read. -/
  strands : Complete t.strands
  /-- The elements could be read. -/
  elements : ∀ x ∈ readable t.strands, Complete x.elements

/-- Every part of the voices of a tune could be read. -/
structure IsReadable (t : Tune τ) : Prop extends t.IsComplete where
  /-- The pitches of the notes could be read. -/
  pitches : ∀ place ∈ t.places, ∀ n, .note n ∈ t.voiceAt place → n.isRest = false →
    Complete n.pitches

/-- What a tune whose voices are read consists of. -/
theorem readsAs_of_readVoices {voices : List (Voice τ)} (h : t.readVoices s = .ok voices) :
    t.IsComplete ∧ voices.length = t.places.length ∧
      ∀ i place, t.places[i]? = some place → ∃ v counts, voices[i]? = some v ∧
        ReadsAs s i .start (t.voiceAt place) counts v ∧ counts.Nodup := by
  obtain ⟨scan, hscan, h⟩ := exists_of_bind_eq_ok h
  obtain rfl := Except.ok.inj h
  have hholds := (Scan.Holds.nil s).foldlM hscan
  rw [List.nil_append] at hholds
  have hplaces : scan.voices.map (·.1) = t.places := hholds.places_eq
  refine ⟨⟨complete_of_foldlM hscan, hholds.complete⟩, ?_, ?_⟩
  · rw [← hplaces, List.length_map, List.length_map]
  · intro i place hi
    rw [← hplaces, List.getElem?_map] at hi
    obtain ⟨⟨_, v⟩, hv, rfl⟩ := Option.map_eq_some_iff.mp hi
    obtain ⟨counts, hreads, hordered, -⟩ := hholds.reads i _ v hv
    exact ⟨v, counts, by rw [List.getElem?_map, hv]; rfl, hreads, hordered.imp fun h => h.ne⟩

/-- The voices of a complete tune can be read if each can be read by itself. -/
theorem exists_readVoices (h : t.IsComplete)
    (hvoices : ∀ place ∈ t.places, ∃ number counts v,
      ReadsAs s number .start (t.voiceAt place) counts v) :
    ∃ voices, t.readVoices s = .ok voices := by
  obtain ⟨scan, hscan⟩ := (Scan.Holds.nil s).exists_foldlM h.elements hvoices
  rw [← h.strands] at hscan
  refine ⟨scan.voices.map (·.2), ?_⟩
  unfold readVoices
  rw [hscan]
  rfl

/-- The voices of a tune can be read if every part of them could. -/
theorem IsReadable.exists_readVoices (h : t.IsReadable) (s : Setting τ) :
    ∃ voices, t.readVoices s = .ok voices := by
  refine t.exists_readVoices h.toIsComplete fun place hplace => ⟨0, ?_⟩
  exact ReadsAs.exists_of_complete s 0 .start (h.pitches place hplace)

end Tune

/-! ## The first voice -/

/-- A voice becomes another one by elements that are read into it. -/
inductive Reads (s : Tune.Setting τ) : Voice τ → List (Element τ) → Voice τ → Prop
  /-- Nothing is read. -/
  | nil (v : Voice τ) : Reads s v [] v
  /-- One element is read, and then the others. -/
  | cons {v v' v'' : Voice τ} {e : Element τ} {rest : List (Element τ)} (number notes notes' : Nat)
      (first : Tune.element s number (v, notes) e = .ok (v', notes')) (more : Reads s v' rest v'') :
      Reads s v (e :: rest) v''

/-- What is read as a voice by itself is read one element after another. -/
lemma ReadsAs.reads (h : ReadsAs s number v es counts v') : Reads s v es v' := by
  induction h with
  | nil v => exact .nil v
  | @note v v' _ n _ count _ first _ ih =>
    refine .cons number count (count + 1) ?_ ih
    change Except.bind (v.note _ n) _ = _
    rw [Voice.note_eq_ok_iff.mpr first]
    rfl
  | barLine _ ih => exact .cons number 0 0 rfl ih
  | other _ ih => exact .cons number 0 0 rfl ih

/-- The first voice is read from the elements of the place that the tune begins with. -/
lemma Tune.reads_head {t : Tune τ} {voices : List (Voice τ)} (h : t.readVoices s = .ok voices) :
    Reads s .start t.firstVoice (voices.head?.getD .start) := by
  obtain ⟨-, hlength, hvoices⟩ := t.readsAs_of_readVoices h
  rw [Tune.firstVoice_eq, List.head?_eq_getElem?, List.head?_eq_getElem?]
  cases hplace : t.places[0]? with
  | none =>
    have hnone : voices[0]? = none := by
      rw [List.getElem?_eq_none_iff] at hplace ⊢
      omega
    rw [hnone]
    exact .nil _
  | some place =>
    obtain ⟨v, counts, hv, hreads, -⟩ := hvoices 0 place hplace
    rw [hv]
    exact hreads.reads

/-! ## Documents -/

namespace Tune

/-- What a setting takes from a header. -/
structure Setting.Of (s : Setting τ) (header : PatternScore.Header τ) : Prop where
  /-- The length of a quarter note. -/
  beat_eq : header.msPerBeat = .ok s.beat
  /-- The length of a bar. -/
  barLength_eq : header.barLength = .ok s.barLength
  /-- The step of the tonic. -/
  tonic_eq : header.key.root.letter.step = s.tonic

/-- A header fixes all that a setting takes from it. -/
lemma Setting.Of.unique {s s' : Setting τ} {header : PatternScore.Header τ} (h : s.Of header)
    (h' : s'.Of header) : s' = s := by
  obtain ⟨beat, barLength, tonic⟩ := s
  obtain ⟨beat', barLength', tonic'⟩ := s'
  obtain rfl : beat' = beat := Except.ok.inj (h'.beat_eq.symm.trans h.beat_eq)
  obtain rfl : barLength' = barLength := Except.ok.inj (h'.barLength_eq.symm.trans h.barLength_eq)
  obtain rfl : tonic' = tonic := h'.tonic_eq.symm.trans h.tonic_eq
  rfl

/-- The document of a tune with some fields in its text, a header, voices that are read and a
number. -/
def documentOf (t : Tune τ) (fields : Header) (header : PatternScore.Header τ)
    (voices : List (Voice τ)) (number : Option Int) : Document τ where
  header := header
  voices := voices.map (·.events)
  names := (List.range voices.length).map fun i => "Voice " ++ Text.nat (i + 1)
  instruments := voices.map fun _ => (t.soundName fields).filter Sound.isKnown
  markers := voices.map (·.markers)
  pickup := (voices.head?.map (·.pickup)).getD Scalar.zero
  tuneNumber := number
  warnings := soundWarnings (t.soundName fields)

/-- What the document of a tune is put together from. -/
theorem extract_eq_ok_iff {t : Tune τ} {d : Document τ} : t.extract = .ok d ↔
    ∃ fields header setting voices number, t.hasMusic = .ok true ∧ t.header = .ok fields ∧
      t.headerOf fields = .ok header ∧ setting.Of header ∧ t.readVoices setting = .ok voices ∧
      numberOf fields = .ok number ∧ d = t.documentOf fields header voices number := by
  constructor
  · intro h
    obtain ⟨hasMusic, hmusic, h⟩ := exists_of_bind_eq_ok h
    cases hasMusic with
    | false => cases h
    | true =>
      obtain ⟨fields, hfields, h⟩ := exists_of_bind_eq_ok h
      obtain ⟨header, hheader, h⟩ := exists_of_bind_eq_ok h
      obtain ⟨barLength, hlength, h⟩ := exists_of_bind_eq_ok h
      obtain ⟨beat, hbeat, h⟩ := exists_of_bind_eq_ok h
      obtain ⟨voices, hvoices, h⟩ := exists_of_bind_eq_ok h
      obtain ⟨number, hnumber, h⟩ := exists_of_bind_eq_ok h
      exact ⟨fields, header, ⟨beat, barLength, header.key.root.letter.step⟩, voices, number, hmusic,
        hfields, hheader, ⟨hbeat, hlength, rfl⟩, hvoices, hnumber, (Except.ok.inj h).symm⟩
  · rintro ⟨fields, header, ⟨beat, barLength, tonic⟩, voices, number, hmusic, hfields, hheader,
      ⟨hbeat, hlength, rfl⟩, hvoices, hnumber, rfl⟩
    unfold extract
    simp only [hmusic, hfields, hheader, hlength, hbeat, hvoices, hnumber, bind, Except.bind]
    rfl

end Tune

/-- The repeat marks and the upbeat of a document are those of the first voice of its tune. -/
lemma Tune.exists_reads {t : Tune τ} {d : Document τ} (h : t.extract = .ok d) :
    ∃ s v, d.header.barLength = .ok s.barLength ∧ d.header.msPerBeat = .ok s.beat ∧
      Reads s .start t.firstVoice v ∧ d.voiceMarkers 0 = v.markers ∧ d.pickup = v.pickup := by
  obtain ⟨fields, header, setting, voices, number, -, -, -, hsetting, hvoices, -, rfl⟩ :=
    extract_eq_ok_iff.mp h
  refine ⟨setting, voices.head?.getD .start, hsetting.barLength_eq, hsetting.beat_eq,
    reads_head hvoices, ?_, ?_⟩
  · cases voices <;> rfl
  · cases voices <;> rfl

end PatternScore.Abc
