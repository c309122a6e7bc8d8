import Mathlib.Data.Prod.Lex
import Mathlib.Order.Bounds.Basic
import PatternScore.Proofs.Bar.Laying

/-!
# Collecting fragments into spans

Fragments of one key become one span, from the earliest start to the latest end of any of them and
with all their pitches (`Merges`). If fragments of one key agree in time, which they do in any case
where chords are told by their timing, a span begins and ends as its fragments do. The spans come
out in the order in which they are laid.
-/

namespace PatternScore.Span

/-! ## The order of layout -/

/-- What the order of layout compares, the more important things first. -/
def rank (s : Span) : ℤ ×ₗ Bool ×ₗ ℤ ×ₗ List ℤ :=
  toLex (s.start, toLex (s.isRest, toLex (s.units, s.pitches)))

/-- One span may be laid before another exactly if its rank is not higher. -/
lemma precedes_iff {s t : Span} : precedes s t = true ↔ rank s ≤ rank t := by
  simp only [rank, Prod.Lex.toLex_le_toLex]
  unfold precedes
  split_ifs with hstart hrest hunits
  · have hne : ¬ s.start = t.start := hstart
    simp [hne]
  · have hsame : s.start = t.start := by simpa using hstart
    revert hrest
    cases s.isRest <;> cases t.isRest <;> simp [hsame]
  · have hsame : s.start = t.start := by simpa using hstart
    have hkind : s.isRest = t.isRest := by simpa using hrest
    have hne : ¬ s.units = t.units := hunits
    simp [hsame, hkind, hne]
  · have hsame : s.start = t.start := by simpa using hstart
    have hkind : s.isRest = t.isRest := by simpa using hrest
    have hlong : s.units = t.units := by simpa using hunits
    -- The comparison of the code is the negation of the opposite one.
    have hpitches : (!t.pitches.lex s.pitches) = true ↔ s.pitches ≤ t.pitches := by
      rw [Bool.not_eq_true', ← Bool.not_eq_true, List.lex_eq_true_iff_lt]
      exact not_lt
    simp only [hsame, hkind, hlong, lt_irrefl, false_or, true_and, hpitches]

/-- The order of layout is transitive, as that of ranks is. -/
lemma precedes_trans (s t u : Span) (h : precedes s t = true) (h' : precedes t u = true) :
    precedes s u = true :=
  precedes_iff.mpr ((precedes_iff.mp h).trans (precedes_iff.mp h'))

/-- Of two spans one may always be laid first. -/
lemma precedes_total (s t : Span) : (precedes s t || precedes t s) = true := by
  rw [Bool.or_eq_true, precedes_iff, precedes_iff]
  exact le_total _ _

/-- A span that comes first in this order may be laid first. -/
lemma Precedes.of_precedes {s t : Span} (h : precedes s t = true) : Precedes s t := by
  have hrank := precedes_iff.mp h
  simp only [rank, Prod.Lex.toLex_le_toLex] at hrank
  rcases hrank with hlt | ⟨heq, hrest⟩
  · exact ⟨hlt.le, fun heq => absurd heq hlt.ne⟩
  · refine ⟨heq.le, fun _ hs => ?_⟩
    rcases hrest with hlt | ⟨hsame, -⟩
    · rw [hs] at hlt
      exact absurd hlt (by simp)
    · rw [← hsame, hs]

/-! ## Spans by key -/

variable {τ : Type} {mode : ChordMode} {done : List (Fragment τ)} {f : Fragment τ}
  {spans : List (Key × Span)} {key : Key} {s : Span}

/-- A span begins, lasts and is silent as a fragment does. -/
structure Matches (s : Span) (f : Fragment τ) : Prop where
  /-- The starts. -/
  start_eq : s.start = f.offsetUnits
  /-- The lengths. -/
  units_eq : s.units = f.units
  /-- Silence. -/
  isRest_eq : s.isRest = f.pitch.isNone

/-- Fragments of one key agree in time. -/
def Agree (mode : ChordMode) (fragments : List (Fragment τ)) : Prop :=
  ∀ f ∈ fragments, ∀ g ∈ fragments, Key.ofFragment mode f = Key.ofFragment mode g →
    f.offsetUnits = g.offsetUnits ∧ f.units = g.units ∧ f.pitch.isNone = g.pitch.isNone

/-- Where chords are told by their timing, fragments of one key agree. -/
lemma agree_timing (fragments : List (Fragment τ)) : Agree .timing fragments := by
  intro f _ g _ heq
  simp only [Key.ofFragment] at heq
  cases hf : f.pitch <;> cases hg : g.pitch <;> simp_all

/-- The pitches of a span with one more fragment are its own and that of the fragment, if it has
one. -/
lemma mem_addPitch {pitches : List Int} {p : Int} :
    p ∈ addPitch pitches f ↔ f.pitch = some p ∨ p ∈ pitches := by
  unfold addPitch
  split
  · rename_i q hq
    rw [mem_insertPitch, hq, Option.some.injEq]
    exact or_congr_left eq_comm
  · rename_i hnone
    simp [hnone]

/-- A span has the earliest start and the latest end of some fragments, and the pitches of all. -/
structure Merges (members : List (Fragment τ)) (s : Span) : Prop where
  /-- It begins with the first of them. -/
  start_least : IsLeast {time | ∃ f ∈ members, f.offsetUnits = time} s.start
  /-- It ends with the last of them. -/
  stop_greatest : IsGreatest {time | ∃ f ∈ members, f.offsetUnits + f.units = time} s.stop
  /-- It sounds what they sound. -/
  mem_pitches : ∀ p, p ∈ s.pitches ↔ ∃ f ∈ members, f.pitch = some p
  /-- They are silent as it is. -/
  isRest_eq : ∀ f ∈ members, f.pitch.isNone = s.isRest

/-- A span begins as that of a single fragment. -/
lemma merges_ofFragment (f : Fragment τ) : Merges [f] (ofFragment f) where
  start_least := ⟨⟨f, List.mem_singleton_self f, rfl⟩, by
    rintro time ⟨g, hg, rfl⟩
    rw [List.mem_singleton.mp hg]
    exact le_rfl⟩
  stop_greatest := ⟨⟨f, List.mem_singleton_self f, rfl⟩, by
    rintro time ⟨g, hg, rfl⟩
    rw [List.mem_singleton.mp hg]
    exact le_rfl⟩
  mem_pitches p := by
    show p ∈ addPitch [] f ↔ _
    rw [mem_addPitch]
    simp
  isRest_eq := List.forall_mem_singleton.mpr rfl

/-- A span with one more fragment. -/
lemma Merges.extend {members : List (Fragment τ)} (h : Merges members s)
    (hrest : f.pitch.isNone = s.isRest) : Merges (members ++ [f]) (s.extend f) := by
  have hstop : (s.extend f).stop = max s.stop (f.offsetUnits + f.units) := by
    simp only [Span.extend, Span.stop]
    omega
  have hmem {P : Fragment τ → Prop} :
      (∃ g ∈ members ++ [f], P g) ↔ (∃ g ∈ members, P g) ∨ P f := by
    simp [or_and_right, exists_or]
  refine ⟨?_, ?_, fun p => ?_, ?_⟩
  · simp only [hmem, eq_comm (a := f.offsetUnits), Set.ofPred_or, Set.ofPred_eq_eq_singleton]
    exact h.start_least.union isLeast_singleton
  · rw [hstop]
    simp only [hmem, eq_comm (a := f.offsetUnits + f.units), Set.ofPred_or,
      Set.ofPred_eq_eq_singleton]
    exact h.stop_greatest.union isGreatest_singleton
  · rw [hmem, ← h.mem_pitches, or_comm]
    exact mem_addPitch
  · intro g hg
    rcases List.mem_append.mp hg with hg | hg
    · exact h.isRest_eq g hg
    · rw [List.mem_singleton.mp hg]
      exact hrest

/-- Fragments of one key are silent alike. -/
lemma isNone_eq_of_key {g : Fragment τ} (h : Key.ofFragment mode f = Key.ofFragment mode g) :
    f.pitch.isNone = g.pitch.isNone := by
  simp only [Key.ofFragment] at h
  split at h <;> split at h <;> simp_all

/-- The fragments of a key. -/
def ofKey (mode : ChordMode) (fragments : List (Fragment τ)) (key : Key) : List (Fragment τ) :=
  fragments.filter fun f => Key.ofFragment mode f = key

/-- The fragments of a key are those that give it. -/
lemma mem_ofKey {fragments : List (Fragment τ)} :
    f ∈ ofKey mode fragments key ↔ f ∈ fragments ∧ Key.ofFragment mode f = key := by
  simp [ofKey]

/-- The spans by key of the fragments so far. -/
structure Collects (mode : ChordMode) (done : List (Fragment τ)) (spans : List (Key × Span)) :
    Prop where
  /-- There is one span for each key. -/
  distinct : spans.Pairwise fun x y => x.1 ≠ y.1
  /-- It merges the fragments of the key. -/
  merges : ∀ key s, (key, s) ∈ spans → Merges (ofKey mode done key) s
  /-- Every fragment is in a span of its key. -/
  kept : ∀ f ∈ done, ∃ s, (Key.ofFragment mode f, s) ∈ spans

/-- A fragment is put into the span of its key or becomes a span. -/
lemma mem_absorb {key' : Key} (h : (key', s) ∈ absorb mode f spans) :
    (key', s) ∈ spans ∨ (key' = Key.ofFragment mode f ∧
      (s = ofFragment f ∨ ∃ old, (key', old) ∈ spans ∧ s = old.extend f)) := by
  induction spans with
  | nil =>
    obtain ⟨rfl, rfl⟩ := Prod.mk.inj (List.mem_singleton.mp h)
    exact .inr ⟨rfl, .inl rfl⟩
  | cons first rest ih =>
    obtain ⟨key, old⟩ := first
    unfold absorb at h
    split at h
    · rename_i hkey
      rcases List.mem_cons.mp h with heq | h
      · obtain ⟨rfl, rfl⟩ := Prod.mk.inj heq
        exact .inr ⟨hkey, .inr ⟨old, List.mem_cons_self, rfl⟩⟩
      · exact .inl (List.mem_cons_of_mem _ h)
    · rcases List.mem_cons.mp h with heq | h
      · exact .inl (heq ▸ List.mem_cons_self)
      · rcases ih h with hold | ⟨heq, hnew | ⟨old', hold, hnew⟩⟩
        · exact .inl (List.mem_cons_of_mem _ hold)
        · exact .inr ⟨heq, .inl hnew⟩
        · exact .inr ⟨heq, .inr ⟨old', List.mem_cons_of_mem _ hold, hnew⟩⟩

/-- The fragment itself is in a span of its key. -/
lemma exists_self_absorb (mode : ChordMode) (f : Fragment τ) (spans : List (Key × Span)) :
    ∃ s, (Key.ofFragment mode f, s) ∈ absorb mode f spans ∧
      ∀ p, f.pitch = some p → p ∈ s.pitches := by
  induction spans with
  | nil => exact ⟨_, List.mem_singleton_self _, fun p hp => mem_addPitch.mpr (.inl hp)⟩
  | cons first rest ih =>
    obtain ⟨key', old⟩ := first
    unfold absorb
    split
    · rename_i hkey
      refine ⟨old.extend f, ?_, fun p hp => mem_addPitch.mpr (.inl hp)⟩
      rw [hkey]
      exact List.mem_cons_self
    · obtain ⟨s, hs, hp⟩ := ih
      exact ⟨s, List.mem_cons_of_mem _ hs, hp⟩

/-- Spans of other keys stay. -/
lemma mem_absorb_of_ne {key' : Key} (hne : key' ≠ Key.ofFragment mode f) :
    (key', s) ∈ absorb mode f spans ↔ (key', s) ∈ spans := by
  induction spans with
  | nil => simp [absorb, hne]
  | cons first rest ih =>
    obtain ⟨key, old⟩ := first
    unfold absorb
    split
    · rename_i hkey
      have hother : key' ≠ key := hkey ▸ hne
      simp [hother]
    · rw [List.mem_cons, List.mem_cons, ih]

/-- The fragment is taken in by the span of its key, or it becomes one if there is none. -/
lemma mem_absorb_self (hdistinct : spans.Pairwise fun x y => x.1 ≠ y.1) :
    (Key.ofFragment mode f, s) ∈ absorb mode f spans ↔
      (∃ old, (Key.ofFragment mode f, old) ∈ spans ∧ s = old.extend f) ∨
        (∀ old, (Key.ofFragment mode f, old) ∉ spans) ∧ s = ofFragment f := by
  induction spans with
  | nil => simp [absorb]
  | cons first rest ih =>
    obtain ⟨key, old⟩ := first
    obtain ⟨hfirst, hrest⟩ := List.pairwise_cons.mp hdistinct
    unfold absorb
    split
    · rename_i hkey
      have hnone : ∀ old', (Key.ofFragment mode f, old') ∉ rest := fun old' hmem =>
        hfirst _ hmem hkey
      simp [hkey, hnone]
    · rename_i hkey
      have hother : Key.ofFragment mode f ≠ key := fun heq => hkey heq.symm
      simp [hother, ih hrest]

/-- There still is one span for each key. -/
lemma distinct_absorb (hdistinct : spans.Pairwise fun x y => x.1 ≠ y.1) (f : Fragment τ) :
    (absorb mode f spans).Pairwise fun x y => x.1 ≠ y.1 := by
  induction spans with
  | nil => exact List.pairwise_singleton _ _
  | cons first rest ih =>
    obtain ⟨key, old⟩ := first
    obtain ⟨hfirst, hrest⟩ := List.pairwise_cons.mp hdistinct
    unfold absorb
    split
    · exact List.pairwise_cons.mpr ⟨hfirst, hrest⟩
    · rename_i hkey
      refine List.pairwise_cons.mpr ⟨fun x hx => ?_, ih hrest⟩
      rcases mem_absorb hx with hold | ⟨heq, -⟩
      · exact hfirst x hold
      · rw [heq]
        exact hkey

/-- One more fragment. -/
lemma Collects.add (h : Collects mode done spans) (f : Fragment τ) :
    Collects mode (done ++ [f]) (absorb mode f spans) := by
  refine ⟨distinct_absorb h.distinct f, fun key s hs => ?_, fun g hg => ?_⟩
  · by_cases hkey : key = Key.ofFragment mode f
    · subst hkey
      have hown : ofKey mode (done ++ [f]) (Key.ofFragment mode f) =
          ofKey mode done (Key.ofFragment mode f) ++ [f] := by
        simp [ofKey]
      rw [hown]
      rcases (mem_absorb_self h.distinct).mp hs with ⟨old, hold, rfl⟩ | ⟨hnone, rfl⟩
      · have hmerges := h.merges _ _ hold
        obtain ⟨g, hg, -⟩ := hmerges.start_least.1
        have hrest := isNone_eq_of_key (mem_ofKey.mp hg).2
        exact hmerges.extend (hrest.symm.trans (hmerges.isRest_eq g hg))
      · -- No fragment before had this key.
        have hnil : ofKey mode done (Key.ofFragment mode f) = [] := by
          refine List.eq_nil_iff_forall_not_mem.mpr fun g hg => ?_
          obtain ⟨hg, hsame⟩ := mem_ofKey.mp hg
          obtain ⟨old, hold⟩ := h.kept g hg
          exact hnone old (hsame ▸ hold)
        rw [hnil]
        exact merges_ofFragment f
    · have hother : ofKey mode (done ++ [f]) key = ofKey mode done key := by
        simp [ofKey, Ne.symm hkey]
      rw [hother]
      exact h.merges key s ((mem_absorb_of_ne hkey).mp hs)
  · rcases List.mem_append.mp hg with hg | hg
    · obtain ⟨old, hold⟩ := h.kept g hg
      by_cases hkey : Key.ofFragment mode g = Key.ofFragment mode f
      · rw [hkey] at hold ⊢
        exact ⟨_, (mem_absorb_self h.distinct).mpr (.inl ⟨old, hold, rfl⟩)⟩
      · exact ⟨old, (mem_absorb_of_ne hkey).mpr hold⟩
    · rw [List.mem_singleton.mp hg]
      obtain ⟨s, hs, -⟩ := exists_self_absorb mode f spans
      exact ⟨s, hs⟩

/-- Further fragments are collected one after another. -/
lemma Collects.foldl {more : List (Fragment τ)} (h : Collects mode done spans) :
    Collects mode (done ++ more) (more.foldl (fun spans f => absorb mode f spans) spans) := by
  induction more generalizing done spans with
  | nil => simpa using h
  | cons f rest ih =>
    have hall : done ++ f :: rest = done ++ [f] ++ rest := by simp
    rw [hall]
    exact ih (h.add f)

/-- All fragments are collected. -/
lemma collects_all (mode : ChordMode) (fragments : List (Fragment τ)) :
    Collects mode fragments (fragments.foldl (fun spans f => absorb mode f spans) []) := by
  have hnil : Collects mode ([] : List (Fragment τ)) [] :=
    ⟨List.Pairwise.nil, fun _ _ h => absurd h List.not_mem_nil,
      fun _ h => absurd h List.not_mem_nil⟩
  exact hnil.foldl

/-! ## The spans of a bar -/

/-- The spans of some fragments, one for each key. -/
structure Merged (mode : ChordMode) (fragments : List (Fragment τ)) (spans : List Span) :
    Prop where
  /-- They come in an order in which they may be laid. -/
  ordered : spans.Pairwise Precedes
  /-- Each reaches as far as it lasts. -/
  reach_eq : ∀ s ∈ spans, s.reach = s.stop
  /-- Each merges the fragments of the key of one. -/
  merges : ∀ s ∈ spans, ∃ f ∈ fragments, Merges (ofKey mode fragments (Key.ofFragment mode f)) s
  /-- Every fragment is in one of them. -/
  kept : ∀ f ∈ fragments, ∃ s ∈ spans, Merges (ofKey mode fragments (Key.ofFragment mode f)) s

/-- Where a span ends as it was written does not matter for what it merges. -/
lemma Merges.withReach {members : List (Fragment τ)} (h : Merges members s) (reach : Int) :
    Merges members { s with reach } :=
  ⟨h.start_least, h.stop_greatest, h.mem_pitches, h.isRest_eq⟩

/-- Fragments are merged by their keys. -/
theorem merged_collect (mode : ChordMode) (fragments : List (Fragment τ)) :
    Merged mode fragments (collect mode fragments) := by
  have hcollects := collects_all mode fragments
  set spans := fragments.foldl (fun spans f => absorb mode f spans) [] with hspans
  have hmem {s : Span} : s ∈ collect mode fragments ↔
      ∃ key old, (key, old) ∈ spans ∧ { old with reach := old.stop } = s := by
    simp [collect, hspans]
  refine ⟨?_, fun s hs => ?_, fun s hs => ?_, fun f hf => ?_⟩
  · exact (List.pairwise_mergeSort precedes_trans precedes_total _).imp Precedes.of_precedes
  · obtain ⟨key, old, -, rfl⟩ := hmem.mp hs
    rfl
  · obtain ⟨key, old, hold, rfl⟩ := hmem.mp hs
    have hmerges := hcollects.merges key old hold
    obtain ⟨f, hmember, -⟩ := hmerges.start_least.1
    obtain ⟨hf, rfl⟩ := mem_ofKey.mp hmember
    exact ⟨f, hf, hmerges.withReach _⟩
  · obtain ⟨old, hold⟩ := hcollects.kept f hf
    exact ⟨_, hmem.mpr ⟨_, old, hold, rfl⟩, (hcollects.merges _ _ hold).withReach _⟩

/-- Spans are collected from units and pitches, and from which keys are the same. -/
lemma collect_map_of_key {σ : Type} {g : Fragment τ → Fragment σ} {rename : Key → Key}
    (hrename : Function.Injective rename)
    (hoffset : ∀ f, (g f).offsetUnits = f.offsetUnits) (hunits : ∀ f, (g f).units = f.units)
    (hpitch : ∀ f, (g f).pitch = f.pitch)
    (hkey : ∀ f, Key.ofFragment mode (g f) = rename (Key.ofFragment mode f))
    (fragments : List (Fragment τ)) :
    collect mode (fragments.map g) = collect mode fragments := by
  have hadd (pitches : List Int) (f : Fragment τ) :
      addPitch pitches (g f) = addPitch pitches f := by
    simp only [addPitch, hpitch]
  have hnew (f : Fragment τ) : ofFragment (g f) = ofFragment f := by
    simp only [ofFragment, hoffset, hunits, hpitch, hadd]
  have hextend (s : Span) (f : Fragment τ) : s.extend (g f) = s.extend f := by
    simp only [extend, hoffset, hunits, hadd]
  have habsorb (f : Fragment τ) (spans : List (Key × Span)) :
      absorb mode (g f) (spans.map (Prod.map rename id)) =
        (absorb mode f spans).map (Prod.map rename id) := by
    induction spans with
    | nil => rw [List.map_nil, absorb, absorb, hkey, hnew]; rfl
    | cons first rest ih =>
      obtain ⟨key, old⟩ := first
      rw [List.map_cons, Prod.map_apply, absorb, absorb, hkey, hextend, ih]
      by_cases h : key = Key.ofFragment mode f
      · rw [if_pos h, if_pos (congrArg rename h)]
        rfl
      · rw [if_neg h, if_neg (hrename.ne h)]
        rfl
  have hfoldl (spans : List (Key × Span)) :
      (fragments.map g).foldl (fun spans f => absorb mode f spans)
          (spans.map (Prod.map rename id)) =
        (fragments.foldl (fun spans f => absorb mode f spans) spans).map (Prod.map rename id) := by
    induction fragments generalizing spans with
    | nil => rfl
    | cons f rest ih => rw [List.map_cons, List.foldl_cons, List.foldl_cons, habsorb, ih]
  have hspans := hfoldl []
  rw [List.map_nil] at hspans
  unfold collect
  rw [hspans]
  dsimp only
  rw [List.map_map]
  rfl

/-- Spans are collected from what the layout counts: units, pitches and chords. -/
lemma collect_map {σ : Type} {g : Fragment τ → Fragment σ}
    (hoffset : ∀ f, (g f).offsetUnits = f.offsetUnits) (hunits : ∀ f, (g f).units = f.units)
    (hpitch : ∀ f, (g f).pitch = f.pitch) (hchord : ∀ f, (g f).chord = f.chord)
    (fragments : List (Fragment τ)) :
    collect mode (fragments.map g) = collect mode fragments := by
  refine collect_map_of_key Function.injective_id hoffset hunits hpitch (fun f => ?_) fragments
  simp only [Key.ofFragment, hoffset, hunits, hpitch, hchord, id_eq]

/-- The spans of some fragments of which those of one key agree. -/
structure Collected (fragments : List (Fragment τ)) (spans : List Span) : Prop where
  /-- They come in an order in which they may be laid. -/
  ordered : spans.Pairwise Precedes
  /-- Each reaches as far as it lasts. -/
  reach_eq : ∀ s ∈ spans, s.reach = s.stop
  /-- Each has the time of a fragment. -/
  of_mem : ∀ s ∈ spans, ∃ f ∈ fragments, Matches s f
  /-- Each pitch is that of a fragment of the same time. -/
  of_pitch : ∀ s ∈ spans, ∀ p ∈ s.pitches, ∃ f ∈ fragments, Matches s f ∧ f.pitch = some p
  /-- Every fragment is in one of them. -/
  kept : ∀ f ∈ fragments, ∃ s ∈ spans, Matches s f ∧ ∀ p, f.pitch = some p → p ∈ s.pitches

/-- A span that merges fragments which agree has the time of each. -/
lemma Merges.matches_of_agree {members : List (Fragment τ)} (h : Merges members s)
    (hagree : ∀ g ∈ members, g.offsetUnits = f.offsetUnits ∧ g.units = f.units)
    (hf : f ∈ members) : Matches s f := by
  obtain ⟨first, hfirst, hstart⟩ := h.start_least.1
  obtain ⟨last, hlast, hstop⟩ := h.stop_greatest.1
  obtain ⟨hbegin, -⟩ := hagree first hfirst
  obtain ⟨hbegin', hlong⟩ := hagree last hlast
  refine ⟨hstart.symm.trans hbegin, ?_, (h.isRest_eq f hf).symm⟩
  unfold Span.stop at hstop
  omega

/-- A span that merges rests has the time of each. -/
lemma Merges.matches_of_rest {fragments : List (Fragment τ)}
    (h : Merges (ofKey mode fragments (Key.ofFragment mode f)) s) (hf : f ∈ fragments)
    (hrest : f.pitch = none) : Matches s f := by
  refine h.matches_of_agree (fun g hg => ?_) (mem_ofKey.mpr ⟨hf, rfl⟩)
  obtain ⟨-, hkey⟩ := mem_ofKey.mp hg
  have hsilent : g.pitch = none := by simpa [hrest] using isNone_eq_of_key hkey
  simpa [Key.ofFragment, hrest, hsilent] using hkey

/-- The rest spans of a bar are its rests. -/
lemma exists_rest_iff {fragments : List (Fragment τ)} {P : Int → Int → Prop} :
    (∃ s ∈ collect mode fragments, s.isRest = true ∧ P s.start s.stop) ↔
      ∃ r ∈ fragments, r.pitch = none ∧ P r.offsetUnits (r.offsetUnits + r.units) := by
  have hmerged := merged_collect mode fragments
  have htimes {s : Span} {r : Fragment τ} (h : Matches s r) :
      P s.start s.stop ↔ P r.offsetUnits (r.offsetUnits + r.units) := by
    rw [stop, h.start_eq, h.units_eq]
  constructor
  · rintro ⟨s, hs, hrest, hP⟩
    obtain ⟨r, hr, hmerges⟩ := hmerged.merges s hs
    have hsilent : r.pitch = none := by
      rw [← Option.isNone_iff_eq_none, hmerges.isRest_eq r (mem_ofKey.mpr ⟨hr, rfl⟩), hrest]
    exact ⟨r, hr, hsilent, (htimes (hmerges.matches_of_rest hr hsilent)).mp hP⟩
  · rintro ⟨r, hr, hsilent, hP⟩
    obtain ⟨s, hs, hmerges⟩ := hmerged.kept r hr
    have hmatches := hmerges.matches_of_rest hr hsilent
    exact ⟨s, hs, by rw [hmatches.isRest_eq, hsilent]; rfl, (htimes hmatches).mpr hP⟩

/-- Spans lie where fragments do. -/
lemma within_of_mem_collect {fragments : List (Fragment τ)} {a b : Int}
    (h : ∀ f ∈ fragments, a ≤ f.offsetUnits ∧ f.offsetUnits + f.units ≤ b)
    (hs : s ∈ collect mode fragments) : a ≤ s.start ∧ s.stop ≤ b := by
  obtain ⟨f, -, hmerges⟩ := (merged_collect mode fragments).merges s hs
  obtain ⟨first, hfirst, hstart⟩ := hmerges.start_least.1
  obtain ⟨last, hlast, hstop⟩ := hmerges.stop_greatest.1
  rw [← hstart, ← hstop]
  exact ⟨(h first (mem_ofKey.mp hfirst).1).1, (h last (mem_ofKey.mp hlast).1).2⟩

/-- Where fragments of one key agree, their spans are theirs. -/
theorem collected_collect {fragments : List (Fragment τ)} (hagree : Agree mode fragments) :
    Collected fragments (collect mode fragments) := by
  have hmerged := merged_collect mode fragments
  -- A span that merges fragments of one key has the time of each of them.
  have hmatches {key : Key} {s : Span} (h : Merges (ofKey mode fragments key) s) {f : Fragment τ}
      (hf : f ∈ ofKey mode fragments key) : Matches s f := by
    refine h.matches_of_agree (fun g hg => ?_) hf
    obtain ⟨hg, hkey⟩ := mem_ofKey.mp hg
    obtain ⟨hf, hkey'⟩ := mem_ofKey.mp hf
    obtain ⟨hstart, hunits, -⟩ := hagree g hg f hf (hkey.trans hkey'.symm)
    exact ⟨hstart, hunits⟩
  refine ⟨hmerged.ordered, hmerged.reach_eq, fun s hs => ?_, fun s hs p hp => ?_, fun f hf => ?_⟩
  · obtain ⟨f, hf, hmerges⟩ := hmerged.merges s hs
    exact ⟨f, hf, hmatches hmerges (mem_ofKey.mpr ⟨hf, rfl⟩)⟩
  · obtain ⟨first, -, hmerges⟩ := hmerged.merges s hs
    obtain ⟨f, hf, hpitch⟩ := (hmerges.mem_pitches p).mp hp
    exact ⟨f, (mem_ofKey.mp hf).1, hmatches hmerges hf, hpitch⟩
  · obtain ⟨s, hs, hmerges⟩ := hmerged.kept f hf
    have hown : f ∈ ofKey mode fragments (Key.ofFragment mode f) := mem_ofKey.mpr ⟨hf, rfl⟩
    exact ⟨s, hs, hmatches hmerges hown, fun p hp => (hmerges.mem_pitches p).mpr ⟨f, hown, hp⟩⟩

end PatternScore.Span
