import PatternScore.Abc.Extraction
import PatternScore.Proofs.Sequence

/-!
# A voice by itself

A voice is read from its elements one after another, and all that it gets from the other voices of
its tune is how many notes stand before each of its own. `Voice.Takes` says what becomes of a voice
by a note (`Voice.note_eq_ok_iff`), `ReadsAs` what becomes of it by all of its elements. Whether
elements can be read depends on the tuplet in which they begin, and on nothing else in the voice
(`ReadsAs.exists_foldlM`).
-/

namespace PatternScore.Abc

variable {τ : Type}

/-! ## Parts that can be read -/

/-- The items of a list that could be read. -/
def readable {α : Type} (l : Listing α) : List α :=
  l.filterMap Except.toOption

/-- Every item of a list could be read. -/
def Complete {α : Type} (l : Listing α) : Prop :=
  l = (readable l).map .ok

section Listing

variable {α β : Type} {l : Listing α}

/-- An item that could be read is the first of those that could. -/
lemma readable_cons (x : α) (l : Listing α) : readable (.ok x :: l) = x :: readable l := rfl

/-- Of items that all could be read, none is left out. -/
@[simp] lemma readable_map_ok (l : List α) : readable (l.map .ok) = l := by
  induction l with
  | nil => rfl
  | cons x rest ih => rw [List.map_cons, readable_cons, ih]

/-- What can be read of two lists is what can be read of each. -/
lemma readable_append (l m : Listing α) : readable (l ++ m) = readable l ++ readable m :=
  List.filterMap_append

/-- A list made of items that could be read is complete. -/
lemma complete_map_ok (l : List α) : Complete (l.map .ok : Listing α) := by
  rw [Complete, readable_map_ok]

/-- A list is complete if and only if none of its items is a failure. -/
lemma complete_iff : Complete l ↔ ∀ item ∈ l, ∃ x, item = .ok x := by
  induction l with
  | nil => simp [Complete, readable]
  | cons item rest ih =>
    rw [List.forall_mem_cons, ← ih]
    cases item with
    | ok x => simp [Complete, readable_cons]
    | error f =>
      have hdropped : readable (.error f :: rest) = readable rest := rfl
      refine iff_of_false (fun h => ?_) (by simp)
      rw [Complete, hdropped] at h
      have herror : (.error f : Except Failure α) ∈ (readable rest).map .ok :=
        h ▸ List.mem_cons_self
      simp at herror

/-- The items that could be read are those that stand in the list as such. -/
lemma mem_readable {x : α} : x ∈ readable l ↔ .ok x ∈ l := by
  rw [readable, List.mem_filterMap]
  constructor
  · rintro ⟨item, hitem, hx⟩
    cases item with
    | ok y => exact Option.some.inj hx ▸ hitem
    | error f => cases hx
  · exact fun hx => ⟨_, hx, rfl⟩

/-- A list that is read item by item to its end is complete. -/
lemma complete_of_foldlM {f : β → α → Except Failure β} {b b' : β}
    (h : l.foldlM (fun b x => do f b (← x)) b = .ok b') : Complete l := by
  induction l generalizing b with
  | nil => rfl
  | cons item rest ih =>
    rw [List.foldlM_cons] at h
    obtain ⟨between, hitem, hrest⟩ := exists_of_bind_eq_ok h
    obtain ⟨x, rfl, -⟩ := exists_of_bind_eq_ok hitem
    exact congrArg (List.cons _) (ih hrest)

/-- Reading item by item without further failures takes a complete list. -/
lemma foldlM_return_eq_ok_iff {f : β → α → β} {b b' : β} :
    l.foldlM (fun b x => do return f b (← x)) b = (.ok b' : Except Failure β) ↔
      Complete l ∧ (readable l).foldl f b = b' := by
  constructor
  · intro h
    have hcomplete : Complete l := complete_of_foldlM h
    refine ⟨hcomplete, ?_⟩
    rw [hcomplete, List.foldlM_map] at h
    exact Except.ok.inj ((List.foldlM_pure ..).symm.trans h)
  · rintro ⟨hcomplete, rfl⟩
    rw [hcomplete, readable_map_ok, List.foldlM_map]
    exact List.foldlM_pure ..

end Listing

/-! ## Notes -/

variable [Scalar τ]

namespace Note

/-- How long a note lasts in a tuplet. -/
def lasting (n : Note τ) (beat tuplet : τ) : τ :=
  n.duration * Scalar.ofNat 4 * beat * n.tuplet.getD tuplet

/-- The factor of the tuplet that is being read behind a note. -/
def tupletBehind (n : Note τ) (tuplet : τ) : τ :=
  if n.endsTuplet then Scalar.ofNat 1 else n.tuplet.getD tuplet

end Note

namespace Voice

/-- A voice in which the time of a note has passed. -/
def past (v : Voice τ) (p : Place τ) (n : Note τ) : Voice τ :=
  { v with
    cursor := v.cursor + n.lasting p.beat v.tuplet
    hasContent := true
    tuplet := n.tupletBehind v.tuplet }

/-- A voice becomes another one by a note. -/
inductive Takes (p : Place τ) (v : Voice τ) (n : Note τ) : Voice τ → Prop
  /-- What does not last leaves only its part in a tuplet. -/
  | nothing (h : n.lasting p.beat v.tuplet ≤ Scalar.zero) :
      Takes p v n { v with tuplet := n.tupletBehind v.tuplet }
  /-- A rest is an event. -/
  | rest (h : ¬ n.lasting p.beat v.tuplet ≤ Scalar.zero) (hrest : n.isRest = true) :
      Takes p v n { v.past p n with
        events := v.events ++ [p.event v.cursor (n.lasting p.beat v.tuplet) none] }
  /-- Pitches are taken in one after another. -/
  | pitches (h : ¬ n.lasting p.beat v.tuplet ≤ Scalar.zero) (hrest : n.isRest = false)
      (hpitches : Complete n.pitches) :
      Takes p v n ((readable n.pitches).foldl
        (fun v' x => v'.pitch p v.cursor (n.lasting p.beat v.tuplet) x) (v.past p n))

variable {p : Place τ} {v v' : Voice τ} {n : Note τ}

/-- What becomes of a voice by a note. -/
theorem note_eq_ok_iff : v.note p n = .ok v' ↔ Takes p v n v' := by
  have hlasting : n.duration * Scalar.ofNat 4 * p.beat * n.tuplet.getD v.tuplet =
    n.lasting p.beat v.tuplet := rfl
  unfold note
  simp only [hlasting]
  by_cases hnothing : n.lasting p.beat v.tuplet ≤ Scalar.zero
  · rw [if_pos hnothing]
    constructor
    · intro h
      rw [← Except.ok.inj h]
      exact .nothing hnothing
    · rintro (_ | ⟨h, _⟩ | ⟨h, _, _⟩)
      · rfl
      · exact absurd hnothing h
      · exact absurd hnothing h
  · rw [if_neg hnothing]
    cases hrest : n.isRest with
    | true =>
      constructor
      · intro h
        rw [← Except.ok.inj h]
        exact .rest hnothing hrest
      · rintro (h | _ | ⟨_, hsounds, _⟩)
        · exact absurd h hnothing
        · rfl
        · rw [hrest] at hsounds
          cases hsounds
    | false =>
      refine foldlM_return_eq_ok_iff.trans ⟨?_, ?_⟩
      · rintro ⟨hpitches, rfl⟩
        exact .pitches hnothing hrest hpitches
      · rintro (h | ⟨_, hsilent⟩ | ⟨_, _, hpitches⟩)
        · exact absurd h hnothing
        · rw [hrest] at hsilent
          cases hsilent
        · exact ⟨hpitches, rfl⟩

/-- A pitch leaves the tuplet as it is. -/
@[simp] lemma pitch_tuplet (onset duration : τ) (x : Pitch) :
    (v.pitch p onset duration x).tuplet = v.tuplet := by
  unfold pitch extend
  cases hx : (if x.endsTie then v.ties.lookup (x.step - p.tonic) else none) <;>
    simp only [hx] <;> split <;> rfl

/-- So do all pitches of a chord. -/
@[simp] lemma foldl_pitch_tuplet (onset duration : τ) (xs : List Pitch) :
    (xs.foldl (fun v x => v.pitch p onset duration x) v).tuplet = v.tuplet := by
  induction xs generalizing v with
  | nil => rfl
  | cons x rest ih => rw [List.foldl_cons, ih, pitch_tuplet]

/-- Behind a note the voice is in the tuplet that the note leaves, however it was taken. -/
lemma Takes.tuplet_eq (h : Takes p v n v') : v'.tuplet = n.tupletBehind v.tuplet := by
  cases h with
  | nothing => rfl
  | rest => rfl
  | pitches => rw [foldl_pitch_tuplet, past]

/-- Whether a note can be taken in depends on its length alone, and so on the tuplet. -/
lemma Takes.exists_of_tuplet_eq {p' : Place τ} {u : Voice τ} (h : Takes p v n v')
    (hbeat : p'.beat = p.beat) (htuplet : u.tuplet = v.tuplet) : ∃ u', Takes p' u n u' := by
  cases h with
  | nothing h =>
    rw [← hbeat, ← htuplet] at h
    exact ⟨_, .nothing h⟩
  | rest h hrest =>
    rw [← hbeat, ← htuplet] at h
    exact ⟨_, .rest h hrest⟩
  | pitches h hrest hpitches =>
    rw [← hbeat, ← htuplet] at h
    exact ⟨_, .pitches h hrest hpitches⟩

/-- A rest, or a note whose pitches could be read, can be taken in. -/
lemma exists_takes (p : Place τ) (v : Voice τ) (h : n.isRest = false → Complete n.pitches) :
    ∃ v', Takes p v n v' := by
  by_cases hnothing : n.lasting p.beat v.tuplet ≤ Scalar.zero
  · exact ⟨_, .nothing hnothing⟩
  · cases hrest : n.isRest with
    | true => exact ⟨_, .rest hnothing hrest⟩
    | false => exact ⟨_, .pitches hnothing hrest (h hrest)⟩

/-! ## Bar lines -/

variable {barLength : τ} {b : BarLine}

/-- A bar line takes no time. -/
@[simp] lemma barLine_cursor : (v.barLine barLength b).cursor = v.cursor := by
  unfold barLine closeBar mark
  split_ifs <;> rfl

/-- A tuplet goes on over a bar line. -/
@[simp] lemma barLine_tuplet : (v.barLine barLength b).tuplet = v.tuplet := by
  unfold barLine closeBar mark
  split_ifs <;> rfl

/-- A bar line is no event. -/
@[simp] lemma barLine_events : (v.barLine barLength b).events = v.events := by
  unfold barLine closeBar mark
  split_ifs <;> rfl

/-- Ties go on over a bar line. -/
@[simp] lemma barLine_ties : (v.barLine barLength b).ties = v.ties := by
  unfold barLine closeBar mark
  split_ifs <;> rfl

end Voice

/-! ## One voice by itself -/

/-- A voice becomes another one by the elements that are read into it as the voice `number`; behind
how many notes of the tune each of its notes stands is listed in `counts`. -/
inductive ReadsAs (s : Tune.Setting τ) (number : Nat) :
    Voice τ → List (Element τ) → List Nat → Voice τ → Prop
  /-- Nothing is read. -/
  | nil (v : Voice τ) : ReadsAs s number v [] [] v
  /-- A note is read, and then the others. -/
  | note {v v' v'' : Voice τ} {n : Note τ} {rest : List (Element τ)} {count : Nat}
      {counts : List Nat} (first : Voice.Takes ⟨s.beat, s.tonic, number, count + 1⟩ v n v')
      (more : ReadsAs s number v' rest counts v'') :
      ReadsAs s number v (.note n :: rest) (count :: counts) v''
  /-- A bar line is read. -/
  | barLine {v v' : Voice τ} {b : BarLine} {rest : List (Element τ)} {counts : List Nat}
      (more : ReadsAs s number (v.barLine s.barLength b) rest counts v') :
      ReadsAs s number v (.barLine b :: rest) counts v'
  /-- Anything else is left out. -/
  | other {v v' : Voice τ} {rest : List (Element τ)} {counts : List Nat}
      (more : ReadsAs s number v rest counts v') : ReadsAs s number v (.other :: rest) counts v'

variable {s : Tune.Setting τ} {number number' : Nat} {v v' v'' u u' : Voice τ}
  {es es' : List (Element τ)} {counts counts' : List Nat}

namespace ReadsAs

/-- Elements are read one part after another. -/
lemma append (h : ReadsAs s number v es counts v') (h' : ReadsAs s number v' es' counts' v'') :
    ReadsAs s number v (es ++ es') (counts ++ counts') v'' := by
  induction h with
  | nil => exact h'
  | note first _ ih => exact .note first (ih h')
  | barLine _ ih => exact .barLine (ih h')
  | other _ ih => exact .other (ih h')

/-- What is read can be read up to some element, and from there on. -/
lemma exists_of_append (h : ReadsAs s number v (es ++ es') counts v'') :
    ∃ before behind v', ReadsAs s number v es before v' ∧ ReadsAs s number v' es' behind v'' := by
  induction es generalizing v counts with
  | nil => exact ⟨[], counts, v, .nil v, h⟩
  | cons e rest ih =>
    cases h with
    | note first more =>
      obtain ⟨before, behind, v', hbefore, hbehind⟩ := ih more
      exact ⟨_, behind, v', .note first hbefore, hbehind⟩
    | barLine more =>
      obtain ⟨before, behind, v', hbefore, hbehind⟩ := ih more
      exact ⟨before, behind, v', .barLine hbefore, hbehind⟩
    | other more =>
      obtain ⟨before, behind, v', hbefore, hbehind⟩ := ih more
      exact ⟨before, behind, v', .other hbefore, hbehind⟩

/-- Elements can be read as a voice if all pitches of their notes could be read. -/
lemma exists_of_complete (s : Tune.Setting τ) (number : Nat) (v : Voice τ)
    (h : ∀ n, .note n ∈ es → n.isRest = false → Complete n.pitches) :
    ∃ counts v', ReadsAs s number v es counts v' := by
  induction es generalizing v with
  | nil => exact ⟨[], v, .nil v⟩
  | cons e rest ih =>
    have hrest : ∀ n, .note n ∈ rest → n.isRest = false → Complete n.pitches :=
      fun n hn => h n (List.mem_cons_of_mem _ hn)
    cases e with
    | note n =>
      obtain ⟨v', hv'⟩ := Voice.exists_takes ⟨s.beat, s.tonic, number, 1⟩ v
        (h n List.mem_cons_self)
      obtain ⟨counts, v'', hmore⟩ := ih v' hrest
      exact ⟨0 :: counts, v'', .note hv' hmore⟩
    | barLine b =>
      obtain ⟨counts, v', hmore⟩ := ih _ hrest
      exact ⟨counts, v', .barLine hmore⟩
    | other =>
      obtain ⟨counts, v', hmore⟩ := ih v hrest
      exact ⟨counts, v', .other hmore⟩

/-- A voice is in the same tuplet behind the same elements. -/
lemma tuplet_eq (h : ReadsAs s number v es counts v') (h' : ReadsAs s number' u es counts' u')
    (htuplet : u.tuplet = v.tuplet) : u'.tuplet = v'.tuplet := by
  induction h generalizing u counts' with
  | nil =>
    cases h'
    exact htuplet
  | note first _ ih =>
    cases h' with
    | note first' more' => exact ih more' (by rw [first.tuplet_eq, first'.tuplet_eq, htuplet])
  | barLine _ ih =>
    cases h' with
    | barLine more' => exact ih more' (by simpa using htuplet)
  | other _ ih =>
    cases h' with
    | other more' => exact ih more' htuplet

end ReadsAs

/-! ## Lists of elements -/

section Listing

variable {elements : Listing (Element τ)} {notes notes' : Nat}

/-- What is read from a list is read as a voice by itself, and each note behind more notes than the
one before. -/
lemma exists_readsAs_of_foldlM
    (h : elements.foldlM (fun read e => do Tune.element s number read (← e)) (v, notes) =
      .ok (v', notes')) :
    ∃ counts, ReadsAs s number v (readable elements) counts v' ∧ counts.Pairwise (· < ·) ∧
      (∀ count ∈ counts, notes ≤ count ∧ count < notes') ∧ notes ≤ notes' := by
  induction elements generalizing v notes with
  | nil =>
    obtain ⟨rfl, rfl⟩ := Prod.mk.inj (Except.ok.inj h)
    exact ⟨[], .nil v, .nil, nofun, le_rfl⟩
  | cons item rest ih =>
    rw [List.foldlM_cons] at h
    obtain ⟨⟨between, read⟩, hitem, hrest⟩ := exists_of_bind_eq_ok h
    obtain ⟨e, rfl, hread⟩ := exists_of_bind_eq_ok hitem
    obtain ⟨counts, hreads, hordered, hnew, hle⟩ := ih hrest
    rw [readable_cons]
    cases e with
    | note n =>
      obtain ⟨after, hafter, hread⟩ := exists_of_bind_eq_ok hread
      obtain ⟨rfl, rfl⟩ := Prod.mk.inj (Except.ok.inj hread)
      refine ⟨notes :: counts, .note (Voice.note_eq_ok_iff.mp hafter) hreads,
        List.pairwise_cons.mpr ⟨fun count hcount => (hnew count hcount).1, hordered⟩,
        List.forall_mem_cons.mpr ⟨⟨le_rfl, hle⟩, fun count hcount => ?_⟩,
        (Nat.le_succ notes).trans hle⟩
      exact (hnew count hcount).imp_left (Nat.le_of_succ_le ·)
    | barLine b =>
      obtain ⟨rfl, rfl⟩ := Prod.mk.inj (Except.ok.inj hread)
      exact ⟨counts, .barLine hreads, hordered, hnew, hle⟩
    | other =>
      obtain ⟨rfl, rfl⟩ := Prod.mk.inj (Except.ok.inj hread)
      exact ⟨counts, .other hreads, hordered, hnew, hle⟩

/-- A complete list can be read into a voice if its elements can be read into another one that is
in the same tuplet. -/
lemma ReadsAs.exists_foldlM (h : ReadsAs s number u es counts u') (htuplet : v.tuplet = u.tuplet)
    (number' notes : Nat) :
    ∃ read, (es.map .ok).foldlM (fun read e => do Tune.element s number' read (← e)) (v, notes) =
      (.ok read : Except Failure (Voice τ × Nat)) := by
  induction h generalizing v notes with
  | nil => exact ⟨_, rfl⟩
  | note first _ ih =>
    have hbeat : (⟨s.beat, s.tonic, number', notes + 1⟩ : Voice.Place τ).beat = s.beat := rfl
    obtain ⟨v', hv'⟩ := first.exists_of_tuplet_eq hbeat htuplet
    obtain ⟨read, hread⟩ := ih (hv'.tuplet_eq.trans (by rw [first.tuplet_eq, htuplet])) (notes + 1)
    refine ⟨read, ?_⟩
    rw [List.map_cons, List.foldlM_cons, ← hread]
    change Except.bind (Except.bind (v.note _ _) _) _ = _
    rw [Voice.note_eq_ok_iff.mpr hv']
    rfl
  | barLine _ ih => exact ih (by simpa using htuplet) notes
  | other _ ih => exact ih htuplet notes

end Listing

end PatternScore.Abc
