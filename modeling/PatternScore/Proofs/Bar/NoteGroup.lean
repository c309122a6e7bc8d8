import Mathlib.Data.Finset.Sort
import PatternScore.Proofs.Bar.Collecting

/-!
# Note groups

What sounds in a bar, said of its fragments alone. The notes of one key are a group, from the
earliest start to the latest end of any of them. From each start of a group on, the pitches of all
groups that begin there sound up to the next start, but not beyond the latest end of a group that
has begun (`NoteGroup.sounding`). So something sounds exactly where there is a group
(`NoteGroup.exists_sounding_has_iff`).
-/

namespace PatternScore

/-- Notes that sound from a start to a stop. -/
structure NoteGroup where
  /-- When the first of them begins. -/
  start : Int
  /-- When the last of them ends. -/
  stop : Int
  /-- What they sound. -/
  pitches : List Int
  deriving DecidableEq, Repr

namespace NoteGroup

/-- A group sounds at a time. -/
def Has (g : NoteGroup) (time : Int) : Prop :=
  g.start ≤ time ∧ time < g.stop

/-- Both bounds can be compared. -/
instance (g : NoteGroup) (time : Int) : Decidable (g.Has time) :=
  inferInstanceAs (Decidable (_ ∧ _))

/-! ## Groups of fragments -/

section Fragments

variable {τ : Type}

/-- The group of some notes. -/
def ofNotes (notes : List (Fragment τ)) : NoteGroup where
  start := (notes.map (·.offsetUnits)).min?.getD 0
  stop := (notes.map fun f => f.offsetUnits + f.units).max?.getD 0
  pitches := notes.filterMap (·.pitch)

/-- The groups of a bar's notes, one for each key. -/
def ofFragments (mode : ChordMode) (fragments : List (Fragment τ)) : List NoteGroup :=
  let notes := fragments.filter (·.pitch.isSome)
  (notes.map (Span.Key.ofFragment mode)).dedup.map fun key => ofNotes (Span.ofKey mode notes key)

/-- A group that ends before the bar begins sounds up to the beginning of the bar. -/
def intoBar (g : NoteGroup) : NoteGroup :=
  { g with stop := max 0 g.stop }

/-- The groups of a bar, none of which ends before the bar begins. -/
def inBar (mode : ChordMode) (fragments : List (Fragment τ)) : List NoteGroup :=
  (ofFragments mode fragments).map intoBar

/-- A group is what a span merges. -/
structure IsOf (s : Span) (g : NoteGroup) : Prop where
  /-- The starts. -/
  start_eq : g.start = s.start
  /-- The ends. -/
  stop_eq : g.stop = s.stop
  /-- The pitches. -/
  mem_pitches : ∀ p, p ∈ g.pitches ↔ p ∈ s.pitches

/-- A span that merges notes is their group. -/
lemma isOf_of_merges {members : List (Fragment τ)} {s : Span} (h : Span.Merges members s) :
    IsOf s (ofNotes members) where
  start_eq := by
    obtain ⟨⟨f, hf, hstart⟩, hleast⟩ := h.start_least
    have hmin : (members.map (·.offsetUnits)).min? = some s.start := by
      rw [List.min?_eq_some_iff]
      refine ⟨List.mem_map.mpr ⟨f, hf, hstart⟩, fun time htime => ?_⟩
      obtain ⟨g, hg, heq⟩ := List.mem_map.mp htime
      exact hleast ⟨g, hg, heq⟩
    rw [ofNotes, hmin]
    rfl
  stop_eq := by
    obtain ⟨⟨f, hf, hstop⟩, hgreatest⟩ := h.stop_greatest
    have hmax : (members.map fun f => f.offsetUnits + f.units).max? = some s.stop := by
      rw [List.max?_eq_some_iff]
      refine ⟨List.mem_map.mpr ⟨f, hf, hstop⟩, fun time htime => ?_⟩
      obtain ⟨g, hg, heq⟩ := List.mem_map.mp htime
      exact hgreatest ⟨g, hg, heq⟩
    rw [ofNotes, hmax]
    rfl
  mem_pitches p := by
    show p ∈ members.filterMap (·.pitch) ↔ _
    rw [h.mem_pitches, List.mem_filterMap]

variable {mode : ChordMode} {fragments : List (Fragment τ)}

/-- The key of a note is that of notes only. -/
lemma ofKey_filter_isSome {f : Fragment τ} (hf : f.pitch.isSome = true) :
    Span.ofKey mode (fragments.filter (·.pitch.isSome)) (Span.Key.ofFragment mode f) =
      Span.ofKey mode fragments (Span.Key.ofFragment mode f) := by
  unfold Span.ofKey
  rw [List.filter_filter]
  apply List.filter_congr
  intro g _
  by_cases hkey : Span.Key.ofFragment mode g = Span.Key.ofFragment mode f
  · have hsame := Span.isNone_eq_of_key hkey
    rw [← Option.not_isSome, ← Option.not_isSome, hf] at hsame
    have hg : g.pitch.isSome = true := by simpa using hsame
    simp [hkey, hg]
  · simp [hkey]

/-- The groups of a bar are those of the keys of its notes. -/
lemma mem_ofFragments {g : NoteGroup} : g ∈ ofFragments mode fragments ↔
    ∃ f ∈ fragments, f.pitch.isSome = true ∧
      ofNotes (Span.ofKey mode fragments (Span.Key.ofFragment mode f)) = g := by
  unfold ofFragments
  simp only [List.mem_map, List.mem_dedup, List.mem_filter]
  constructor
  · rintro ⟨-, ⟨f, ⟨hf, hnote⟩, rfl⟩, rfl⟩
    exact ⟨f, hf, hnote, by rw [ofKey_filter_isSome hnote]⟩
  · rintro ⟨f, hf, hnote, rfl⟩
    exact ⟨_, ⟨f, ⟨hf, hnote⟩, rfl⟩, by rw [ofKey_filter_isSome hnote]⟩

/-- Every group is what some note span of the bar merges. -/
lemma exists_isOf {g : NoteGroup} (hg : g ∈ ofFragments mode fragments) :
    ∃ s ∈ Span.notes (Span.collect mode fragments), IsOf s g := by
  obtain ⟨f, hf, hnote, rfl⟩ := mem_ofFragments.mp hg
  obtain ⟨s, hs, hmerges⟩ := (Span.merged_collect mode fragments).kept f hf
  refine ⟨s, Span.mem_notes.mpr ⟨hs, ?_⟩, isOf_of_merges hmerges⟩
  rw [← hmerges.isRest_eq f (Span.mem_ofKey.mpr ⟨hf, rfl⟩), ← Option.not_isSome, hnote]
  rfl

/-- Every note span of a bar merges a group. -/
lemma exists_group {s : Span} (hs : s ∈ Span.notes (Span.collect mode fragments)) :
    ∃ g ∈ ofFragments mode fragments, IsOf s g := by
  obtain ⟨hs, hnote⟩ := Span.mem_notes.mp hs
  obtain ⟨f, hf, hmerges⟩ := (Span.merged_collect mode fragments).merges s hs
  refine ⟨_, mem_ofFragments.mpr ⟨f, hf, ?_, rfl⟩, isOf_of_merges hmerges⟩
  have hsame := hmerges.isRest_eq f (Span.mem_ofKey.mpr ⟨hf, rfl⟩)
  rw [hnote] at hsame
  rw [← Option.not_isNone, hsame]
  rfl

/-- The groups of a bar are its note spans. -/
lemma exists_iff {P : Int → Int → Prop} : (∃ g ∈ ofFragments mode fragments, P g.start g.stop) ↔
    ∃ n ∈ Span.notes (Span.collect mode fragments), P n.start n.stop := by
  constructor
  · rintro ⟨g, hg, hP⟩
    obtain ⟨n, hn, hgroup⟩ := exists_isOf hg
    exact ⟨n, hn, by rwa [← hgroup.start_eq, ← hgroup.stop_eq]⟩
  · rintro ⟨n, hn, hP⟩
    obtain ⟨g, hg, hgroup⟩ := exists_group hn
    exact ⟨g, hg, by rwa [hgroup.start_eq, hgroup.stop_eq]⟩

/-- The groups of a bar whose fragments begin in it are the same in the bar. -/
lemma inBar_eq (hunits : ∀ f ∈ fragments, 0 ≤ f.units)
    (hstart : ∀ f ∈ fragments, 0 ≤ f.offsetUnits) :
    inBar mode fragments = ofFragments mode fragments := by
  unfold inBar
  nth_rewrite 2 [← List.map_id (ofFragments mode fragments)]
  apply List.map_congr_left
  intro g hg
  obtain ⟨f, hf, -, rfl⟩ := mem_ofFragments.mp hg
  obtain ⟨s, -, hmerges⟩ := (Span.merged_collect mode fragments).kept f hf
  have hstop := hmerges.stop_greatest.2 ⟨f, Span.mem_ofKey.mpr ⟨hf, rfl⟩, rfl⟩
  rw [← (isOf_of_merges hmerges).stop_eq] at hstop
  have hnonneg : 0 ≤ f.offsetUnits + f.units := add_nonneg (hstart f hf) (hunits f hf)
  rw [intoBar, max_eq_right (hnonneg.trans hstop)]
  rfl

end Fragments

/-! ## What sounds -/

/-- The starts of some groups, ascending and each once. -/
def starts (groups : List NoteGroup) : List Int :=
  (groups.map (·.start)).toFinset.sort

/-- The latest end of the groups that have begun by a time. -/
def reach (groups : List NoteGroup) (time : Int) : Int :=
  ((groups.filter (·.start ≤ time)).map (·.stop)).max?.getD 0

/-- The pitches of the groups that begin at a time, ascending and each once. -/
def pitchesAt (groups : List NoteGroup) (time : Int) : List Int :=
  ((groups.filter (·.start = time)).flatMap (·.pitches)).toFinset.sort

/-- What sounds from each of some times on, up to the next of them. -/
def soundingFrom (groups : List NoteGroup) : List Int → List NoteGroup
  | [] => []
  | time :: later =>
    { start := time
      stop := (later.head?.map fun next => min next (reach groups time)).getD (reach groups time)
      pitches := pitchesAt groups time } :: soundingFrom groups later

/-- What sounds one after another, where some groups are played over each other. -/
def sounding (groups : List NoteGroup) : List NoteGroup :=
  soundingFrom groups (starts groups)

variable {groups : List NoteGroup} {g n : NoteGroup} {time : Int}

/-- A time is listed if a group starts at it. -/
lemma mem_starts : time ∈ starts groups ↔ ∃ g ∈ groups, g.start = time := by
  simp [starts]

/-- The starts are ascending, each of them once. -/
lemma pairwise_starts (groups : List NoteGroup) : (starts groups).Pairwise (· < ·) :=
  (Finset.sortedLT_sort _).pairwise

/-- A pitch is listed if it is of a group that starts at the time. -/
lemma mem_pitchesAt {p : Int} :
    p ∈ pitchesAt groups time ↔ ∃ g ∈ groups, g.start = time ∧ p ∈ g.pitches := by
  simp [pitchesAt, and_assoc]

/-- The pitches are ascending, each of them once. -/
lemma pairwise_pitchesAt (groups : List NoteGroup) (time : Int) :
    (pitchesAt groups time).Pairwise (· < ·) :=
  (Finset.sortedLT_sort _).pairwise

/-- The reach is the least bound of the ends, once a group has begun. -/
lemma reach_le_iff (hg : g ∈ groups) (hstart : g.start ≤ time) {x : Int} :
    reach groups time ≤ x ↔ ∀ g ∈ groups, g.start ≤ time → g.stop ≤ x := by
  have hbegun : g.stop ∈ (groups.filter (·.start ≤ time)).map (·.stop) :=
    List.mem_map_of_mem (List.mem_filter.mpr ⟨hg, decide_eq_true hstart⟩)
  obtain ⟨latest, hlatest⟩ : ∃ latest, ((groups.filter (·.start ≤ time)).map (·.stop)).max? =
      some latest :=
    Option.isSome_iff_exists.mp (List.isSome_max?_of_mem hbegun)
  have hreach : reach groups time = latest := by
    rw [reach, hlatest]
    rfl
  rw [hreach, List.max?_le_iff hlatest]
  simp only [List.forall_mem_map, List.mem_filter, decide_eq_true_eq, and_imp]

/-- Something that has begun ends later. -/
lemma lt_reach_iff (hg : g ∈ groups) (hstart : g.start ≤ time) {x : Int} :
    x < reach groups time ↔ ∃ g ∈ groups, g.start ≤ time ∧ x < g.stop := by
  rw [← not_le, reach_le_iff hg hstart]
  push Not
  rfl

/-- What sounds begins at one of the times and ends by the latest end of the groups that have
begun. -/
lemma of_mem_soundingFrom {times : List Int} (hn : n ∈ soundingFrom groups times) :
    n.start ∈ times ∧ n.stop ≤ reach groups n.start := by
  induction times with
  | nil => cases hn
  | cons first later ih =>
    rcases List.mem_cons.mp hn with rfl | hn
    · refine ⟨List.mem_cons_self, ?_⟩
      cases later with
      | nil => exact le_rfl
      | cons next later => exact min_le_right _ _
    · obtain ⟨hmem, hle⟩ := ih hn
      exact ⟨List.mem_cons_of_mem _ hmem, hle⟩

/-- Within a group something sounds from the last start on that is not later. -/
lemma exists_soundingFrom_has {times : List Int} (hsorted : times.Pairwise (· < ·))
    (hg : g ∈ groups) (hstop : time < g.stop) (hbegun : ∃ t ∈ times, g.start ≤ t ∧ t ≤ time) :
    ∃ n ∈ soundingFrom groups times, n.Has time := by
  induction times with
  | nil => simp at hbegun
  | cons first later ih =>
    obtain ⟨hfirst, hlater⟩ := List.pairwise_cons.mp hsorted
    by_cases hnext : ∃ t ∈ later, g.start ≤ t ∧ t ≤ time
    · obtain ⟨n, hn, hhas⟩ := ih hlater hnext
      exact ⟨n, List.mem_cons_of_mem _ hn, hhas⟩
    · obtain ⟨t, ht, hstart, hle⟩ := hbegun
      rcases List.mem_cons.mp ht with rfl | ht
      · have hreach : time < reach groups t := (lt_reach_iff hg hstart).mpr ⟨g, hg, hstart, hstop⟩
        refine ⟨_, List.mem_cons_self, hle, ?_⟩
        cases later with
        | nil => exact hreach
        | cons next later =>
          have hafter : ¬ next ≤ time := fun hle => hnext
            ⟨next, List.mem_cons_self, hstart.trans (hfirst next List.mem_cons_self).le, hle⟩
          exact lt_min (not_le.mp hafter) hreach
      · exact absurd ⟨t, ht, hstart, hle⟩ hnext

/-- Something sounds exactly where there is a group. -/
theorem exists_sounding_has_iff :
    (∃ n ∈ sounding groups, n.Has time) ↔ ∃ g ∈ groups, g.Has time := by
  constructor
  · rintro ⟨n, hn, hstart, hstop⟩
    obtain ⟨hmem, hle⟩ := of_mem_soundingFrom hn
    obtain ⟨first, hfirst, heq⟩ := mem_starts.mp hmem
    obtain ⟨g, hg, hbegun, hlt⟩ := (lt_reach_iff hfirst heq.le).mp (hstop.trans_le hle)
    exact ⟨g, hg, hbegun.trans hstart, hlt⟩
  · rintro ⟨g, hg, hstart, hstop⟩
    exact exists_soundingFrom_has (pairwise_starts groups) hg hstop
      ⟨g.start, mem_starts.mpr ⟨g, hg, rfl⟩, le_rfl, hstart⟩

end NoteGroup

end PatternScore
