import Mathlib
import PatternScore.Proofs.Bar.Grouping
import PatternScore.Proofs.Bar.MinimalUnit
import PatternScore.Proofs.Number.Binary64

/-!
# Bars whose fragments come in another order

A bar does not depend on the order in which its fragments are given. Fragments are collected by keys
and merged into spans of which every part is told by the fragments of the key, whatever their order;
then the spans are sorted, and two of them that may stand in either order are the same
(`Span.collect_perm`). The unit of a bar depends on the shortest duration, on tests that are asked
of all durations, and on a common divisor. Each of them is found again in another order, and a
fragment is counted by itself (`Slot.exists_quantize_perm`). So a bar becomes the same tokens in any
order (`Slot.measureAndGroup_perm`).

The order tells at most whether there are tokens. A test of all durations ends with the first one
that it refuses, so a later one that is beyond the range of the numbers is not noticed
(`Slot.not_forall_perm`). Where every test has an answer (`Slot.Decided`), as in exact arithmetic,
this does not happen.
-/

namespace PatternScore

/-! ## Collecting -/

namespace Span

variable {τ : Type} {mode : ChordMode} {fragments fragments' members members' : List (Fragment τ)}
  {s t : Span} {key : Key}

/-- It does not matter in which order fragments are merged. -/
lemma Merges.of_perm (h : Merges members s) (hperm : members.Perm members') :
    Merges members' s where
  start_least := by simpa only [hperm.mem_iff] using h.start_least
  stop_greatest := by simpa only [hperm.mem_iff] using h.stop_greatest
  mem_pitches := by simpa only [hperm.mem_iff] using h.mem_pitches
  isRest_eq := by simpa only [hperm.mem_iff] using h.isRest_eq

/-- Two spans with ascending pitches that merge the same fragments differ in their reach alone. -/
lemma Merges.unique (h : Merges members s) (h' : Merges members t)
    (hs : s.pitches.Pairwise (· < ·)) (ht : t.pitches.Pairwise (· < ·)) :
    { s with reach := s.stop } = { t with reach := t.stop } := by
  have hstart : s.start = t.start := h.start_least.unique h'.start_least
  have hstop : s.stop = t.stop := h.stop_greatest.unique h'.stop_greatest
  have hpitches : s.pitches = t.pitches := by
    refine List.SortedLT.eq_of_mem_iff hs.sortedLT ht.sortedLT fun p => ?_
    rw [h.mem_pitches, h'.mem_pitches]
  have hrest : s.isRest = t.isRest := by
    obtain ⟨f, hf, -⟩ := h.start_least.1
    exact (h.isRest_eq f hf).symm.trans (h'.isRest_eq f hf)
  have hunits : s.units = t.units := by
    unfold Span.stop at hstop
    omega
  rw [hstop]
  simp only [hstart, hunits, hpitches, hrest]

/-- The spans of fragments by key, with their reach. -/
def keyed (mode : ChordMode) (fragments : List (Fragment τ)) : List (Key × Span) :=
  (fragments.foldl (fun spans f => absorb mode f spans) []).map fun x =>
    (x.1, { x.2 with reach := x.2.stop })

/-- The spans of a bar are those by key, in the order of layout. -/
lemma collect_eq_keyed (mode : ChordMode) (fragments : List (Fragment τ)) :
    collect mode fragments = ((keyed mode fragments).map (·.2)).mergeSort precedes := by
  rw [keyed, List.map_map]
  rfl

/-- No span is there twice, since no key has two. -/
lemma nodup_keyed (mode : ChordMode) (fragments : List (Fragment τ)) :
    (keyed mode fragments).Nodup := by
  have hdistinct := (collects_all mode fragments).distinct
  refine List.pairwise_map.mpr (hdistinct.imp fun hne heq => hne ?_)
  exact (Prod.mk.inj heq).1

/-- The pitches of a span that is collected ascend, each once. -/
lemma ascending_of_mem_foldl (hunits : ∀ f ∈ fragments, 0 < f.units)
    (h : (key, s) ∈ fragments.foldl (fun spans f => absorb mode f spans) []) :
    s.pitches.Pairwise (· < ·) :=
  (formed_foldl_absorb (by simp) hunits key s h).ascending

/-- Each span by key is found in any order of the fragments. -/
lemma mem_keyed_of_perm (hunits : ∀ f ∈ fragments, 0 < f.units) (hperm : fragments.Perm fragments')
    {x : Key × Span} (hx : x ∈ keyed mode fragments) : x ∈ keyed mode fragments' := by
  have hcollects := collects_all mode fragments
  have hcollects' := collects_all mode fragments'
  have hunits' : ∀ f ∈ fragments', 0 < f.units := fun f hf => hunits f (hperm.mem_iff.mpr hf)
  obtain ⟨⟨key, old⟩, hold, rfl⟩ := List.mem_map.mp hx
  have hmerges := hcollects.merges key old hold
  obtain ⟨f, hmember, -⟩ := hmerges.start_least.1
  obtain ⟨hf, rfl⟩ := mem_ofKey.mp hmember
  obtain ⟨new, hnew⟩ := hcollects'.kept f (hperm.mem_iff.mp hf)
  have hmerges' := (hcollects'.merges _ new hnew).of_perm (hperm.symm.filter _)
  refine List.mem_map.mpr ⟨_, hnew, ?_⟩
  rw [hmerges.unique hmerges' (ascending_of_mem_foldl hunits hold)
    (ascending_of_mem_foldl hunits' hnew)]

/-- Spans that precede each other are the same, where a span reaches as far as it lasts. -/
lemma eq_of_precedes (hs : s.reach = s.stop) (ht : t.reach = t.stop) (h : precedes s t = true)
    (h' : precedes t s = true) : s = t := by
  have hrank : rank s = rank t := le_antisymm (precedes_iff.mp h) (precedes_iff.mp h')
  simp only [rank, EmbeddingLike.apply_eq_iff_eq, Prod.mk.injEq] at hrank
  obtain ⟨hstart, hrest, hunits, hpitches⟩ := hrank
  have hreach : s.reach = t.reach := by
    rw [hs, ht, Span.stop, Span.stop, hstart, hunits]
  clear hs ht h h'
  cases s
  cases t
  simp_all

/-- Fragments are collected in the same spans in any order. -/
theorem collect_perm (hunits : ∀ f ∈ fragments, 0 < f.units)
    (hperm : fragments.Perm fragments') : collect mode fragments = collect mode fragments' := by
  have hunits' : ∀ f ∈ fragments', 0 < f.units := fun f hf => hunits f (hperm.mem_iff.mpr hf)
  have hkeyed : (keyed mode fragments).Perm (keyed mode fragments') := by
    rw [List.perm_ext_iff_of_nodup (nodup_keyed _ _) (nodup_keyed _ _)]
    intro x
    exact ⟨mem_keyed_of_perm hunits hperm, mem_keyed_of_perm hunits' hperm.symm⟩
  have hsorted (l : List Span) : (l.mergeSort precedes).Pairwise fun s t => precedes s t = true :=
    List.pairwise_mergeSort precedes_trans precedes_total l
  have hcollects : (collect mode fragments).Perm (collect mode fragments') := by
    rw [collect_eq_keyed, collect_eq_keyed]
    exact (List.mergeSort_perm _ _).trans
      ((hkeyed.map _).trans (List.mergeSort_perm _ _).symm)
  refine hcollects.eq_of_pairwise (fun s t hs ht => ?_) (hsorted _) (hsorted _)
  exact eq_of_precedes ((merged_collect mode fragments).reach_eq s hs)
    ((merged_collect mode fragments').reach_eq t ht)

end Span

namespace Units

variable {τ : Type} [Scalar τ] {search : UnitSearch τ} {l l' : List τ}
  {units units' counts : List Int} {unit minimum : τ} {k k' : Int}

/-! ## The shortest duration -/

/-- Durations that take time are not zero. -/
lemma value_ne_zero [Scalar.ComparesValues τ] {d : τ} (hd : epsilon < d) {q : Rat}
    (hq : Scalar.value d = .finite q) : q ≠ 0 := by
  obtain ⟨e, he, hvalue⟩ : ∃ e, 0 ≤ e ∧ Scalar.value (epsilon : τ) = .finite e :=
    Scalar.ComparesValues.exists_billionth
  have hlt : e < q := (Scalar.ComparesValues.lt_iff hvalue hq).mp hd
  exact (he.trans_lt hlt).ne'

/-- The least of several durations is the same in any order. -/
lemma least_perm [Scalar.ComparesValues τ] {first first' : τ} {rest rest' : List τ}
    (hfinite : ∀ x ∈ first :: rest, Scalar.IsFinite x) (htime : ∀ x ∈ first :: rest, epsilon < x)
    (hperm : (first :: rest).Perm (first' :: rest')) : least first rest = least first' rest' := by
  have hfinite' : ∀ x ∈ first' :: rest', Scalar.IsFinite x := fun x hx =>
    hfinite x (hperm.mem_iff.mpr hx)
  have hmem := least_mem first rest
  have hmem' := least_mem first' rest'
  obtain ⟨q, hq⟩ := hfinite _ hmem
  obtain ⟨q', hq'⟩ := hfinite' _ hmem'
  -- Each of the two is among the others, so neither is greater.
  have hle : q ≤ q' := value_least_le hfinite hq _ (hperm.mem_iff.mpr hmem') hq'
  have hle' : q' ≤ q := value_least_le hfinite' hq' _ (hperm.mem_iff.mp hmem) hq
  obtain rfl := le_antisymm hle hle'
  exact Scalar.ComparesValues.eq_of_value (value_ne_zero (htime _ hmem) hq) hq hq'

/-! ## The common divisor -/

/-- The common divisor of positive integers is the same in any order. -/
lemma commonDivisor_perm (hpos : ∀ n ∈ units, 0 < n) (hperm : units.Perm units') :
    commonDivisor units = commonDivisor units' := by
  by_cases hne : units = []
  · subst hne
    rw [hperm.nil_eq]
  · have hne' : units' ≠ [] := fun hnil => hne (hperm.trans (hnil ▸ .refl _)).eq_nil
    have hpos' : ∀ n ∈ units', 0 < n := fun n hn => hpos n (hperm.mem_iff.mpr hn)
    apply Int.dvd_antisymm (commonDivisor_pos hne hpos).le (commonDivisor_pos hne' hpos').le
    · exact dvd_commonDivisor fun n hn => commonDivisor_dvd (hperm.mem_iff.mpr hn)
    · exact dvd_commonDivisor fun n hn => commonDivisor_dvd (hperm.mem_iff.mp hn)

/-! ## Searching -/

/-- The split that is found is the same in any order. -/
lemma subdivisionFrom_unique_of_perm {splits : List Int} (hperm : l.Perm l')
    (h : subdivisionFrom search minimum l splits = .ok k)
    (h' : subdivisionFrom search minimum l' splits = .ok k') : k = k' := by
  induction splits with
  | nil => exact Except.ok.inj (h.symm.trans h')
  | cons split finer ih =>
    rw [subdivisionFrom] at h h'
    split_ifs at h h' with hlimit
    · exact Except.ok.inj (h.symm.trans h')
    · obtain ⟨b, hb, h⟩ := exists_of_bind_eq_ok h
      obtain ⟨b', hb', h'⟩ := exists_of_bind_eq_ok h'
      obtain rfl := allM_unique_of_perm hperm hb hb'
      cases b with
      | true => exact Except.ok.inj (h.symm.trans h')
      | false => exact ih h h'

/-- Some split is found if every test has an answer. -/
lemma exists_subdivisionFrom_of_answers {splits : List Int}
    (h : ∀ k ∈ splits, ∀ d ∈ l, ∃ b, fits search.tolerance minimum k d = .ok b) :
    ∃ k, subdivisionFrom search minimum l splits = .ok k := by
  induction splits with
  | nil => exact ⟨1, rfl⟩
  | cons split finer ih =>
    obtain ⟨hsplit, hfiner⟩ := List.forall_mem_cons.mp h
    obtain ⟨b, hb⟩ := exists_allM_eq_ok hsplit
    rw [subdivisionFrom]
    split_ifs with hlimit
    · exact ⟨1, rfl⟩
    · rw [hb]
      cases b with
      | true => exact ⟨split, rfl⟩
      | false => exact ih hfiner

/-- The multiplier that is found is the same in any order. -/
lemma multiplierFrom_unique_of_perm {tolerance : τ} {tries : Nat} {multiplier : Int}
    {found found' : Option Int} (hperm : l.Perm l')
    (h : multiplierFrom tolerance l tries multiplier = .ok found)
    (h' : multiplierFrom tolerance l' tries multiplier = .ok found') : found = found' := by
  induction tries generalizing multiplier with
  | zero => exact Except.ok.inj (h.symm.trans h')
  | succ tries ih =>
    rw [multiplierFrom] at h h'
    obtain ⟨b, hb, h⟩ := exists_of_bind_eq_ok h
    obtain ⟨b', hb', h'⟩ := exists_of_bind_eq_ok h'
    obtain rfl := allM_unique_of_perm hperm hb hb'
    cases b with
    | true => exact Except.ok.inj (h.symm.trans h')
    | false => exact ih h h'

/-- The search for a multiplier ends if every test has an answer. -/
lemma exists_multiplierFrom_of_answers {tolerance : τ} {tries : Nat} {multiplier : Int}
    (h : ∀ k, multiplier ≤ k → k < multiplier + tries →
      ∀ x ∈ l, ∃ b, isNearlyWhole tolerance k x = .ok b) :
    ∃ found, multiplierFrom tolerance l tries multiplier = .ok found := by
  induction tries generalizing multiplier with
  | zero => exact ⟨none, rfl⟩
  | succ tries ih =>
    obtain ⟨b, hb⟩ := exists_allM_eq_ok (h multiplier le_rfl (by omega))
    rw [multiplierFrom, hb]
    cases b with
    | true => exact ⟨some multiplier, rfl⟩
    | false => exact ih fun k hle hlt => h k (by omega) (by push_cast; omega)

/-! ## Counting -/

/-- A duration is counted by itself, and the count is divided. -/
def CountedBy (count : τ → Except Failure Int) (divisor : Int) (d : τ) (n : Int) : Prop :=
  ∃ k, count d = .ok k ∧ n = k / divisor

/-- Durations are counted one by one, and so are others, by the same function. -/
def CountedAlike (l l' : List τ) (units units' : List Int) : Prop :=
  ∃ count divisor, List.Forall₂ (CountedBy count divisor) l units ∧
    List.Forall₂ (CountedBy count divisor) l' units'

omit [Scalar τ] in
/-- A duration has one count. -/
lemma countedBy_unique {count : τ → Except Failure Int} {divisor : Int} :
    Relator.RightUnique (CountedBy count divisor) := by
  rintro d n n' ⟨k, hk, rfl⟩ ⟨k', hk', rfl⟩
  obtain rfl := Except.ok.inj (hk.symm.trans hk')
  rfl

omit [Scalar τ] in
/-- Counts in another order have the same common divisor. -/
lemma exists_counts_perm {count : τ → Except Failure Int}
    (hpos : ∀ d n, count d = .ok n → 1 ≤ n) (hperm : l.Perm l') (h : l.mapM count = .ok counts) :
    ∃ counts', l'.mapM count = .ok counts' ∧ commonDivisor counts' = commonDivisor counts := by
  obtain ⟨counts', h', hcounts⟩ := exists_mapM_perm hperm h
  exact ⟨counts', h', (commonDivisor_perm (counts_of_mapM hpos h).one_le hcounts).symm⟩

omit [Scalar τ] in
/-- What is counted by one function and divided by one divisor is counted alike. -/
lemma countedAlike_of_mapM {count : τ → Except Failure Int} {counts' : List Int}
    (h : l.mapM count = .ok counts) (h' : l'.mapM count = .ok counts') (divisor : Int) :
    CountedAlike l l' (counts.map (· / divisor)) (counts'.map (· / divisor)) := by
  have hall {l : List τ} {counts : List Int} (h : l.mapM count = .ok counts) :
      List.Forall₂ (CountedBy count divisor) l (counts.map (· / divisor)) := by
    rw [List.forall₂_map_right_iff]
    exact (mapM_eq_ok_iff.mp h).imp fun d n hn => ⟨n, hn, rfl⟩
  exact ⟨count, divisor, hall h, hall h'⟩

/-! ## The minimal way -/

/-- The search for a split of the shortest duration ends. -/
def FindsSplit (search : UnitSearch τ) (durations : List τ) : Prop :=
  ∀ first rest, (durations.filter fun d => decide (epsilon < d)) = first :: rest →
    ∃ k, subdivisionFrom search (least first rest) (first :: rest) subdivisions = .ok k

/-- Where units are found, a split was. -/
lemma findsSplit_of_ofDurations (h : ofDurations search l = .ok (units, unit)) :
    FindsSplit search l := by
  intro first rest hfilter
  unfold ofDurations at h
  rw [hfilter] at h
  obtain ⟨k, hk, -⟩ := exists_of_bind_eq_ok h
  exact ⟨k, hk⟩

/-- In any order in which a split is found, durations are counted alike and have the same unit. -/
lemma ofDurations_perm [Scalar.ComparesValues τ] (hfinite : ∀ d ∈ l, Scalar.IsFinite d)
    (hperm : l.Perm l') (h : ofDurations search l = .ok (units, unit))
    (hfinds : FindsSplit search l') : ∃ units', ofDurations search l' = .ok (units', unit) ∧
      CountedAlike l l' units units' := by
  have hfilter := hperm.filter fun d => decide (epsilon < d)
  have hlasting {d : τ} (hd : d ∈ l.filter fun d => decide (epsilon < d)) :
      Scalar.IsFinite d ∧ epsilon < d := by
    obtain ⟨hd, htime⟩ := List.mem_filter.mp hd
    exact ⟨hfinite d hd, of_decide_eq_true htime⟩
  unfold ofDurations at h ⊢
  cases hl : l.filter fun d => decide (epsilon < d) with
  | nil =>
    rw [hl] at h hfilter
    have hl' : (l'.filter fun d => decide (epsilon < d)) = [] := hfilter.nil_eq.symm
    rw [hl']
    cases h
    have hone (m : List τ) : m.mapM (fun _ => (.ok 1 : Except Failure Int)) =
        .ok (m.map fun _ => 1) := mapM_eq_ok fun _ _ => rfl
    refine ⟨_, rfl, ?_⟩
    simpa using countedAlike_of_mapM (hone l) (hone l') 1
  | cons first rest =>
    rw [hl] at h hfilter hlasting
    obtain ⟨first', rest', hl'⟩ : ∃ first' rest',
        (l'.filter fun d => decide (epsilon < d)) = first' :: rest' :=
      List.exists_cons_of_ne_nil fun hnil => by simp [hnil] at hfilter
    rw [hl'] at hfilter ⊢
    have hleast := least_perm (fun _ hd => (hlasting hd).1) (fun _ hd => (hlasting hd).2)
      hfilter
    obtain ⟨k, hk, h⟩ := exists_of_bind_eq_ok h
    obtain ⟨quantum, hquantum, h⟩ := exists_of_bind_eq_ok h
    obtain ⟨counts, hcounts, h⟩ := exists_of_bind_eq_ok h
    cases h
    obtain ⟨k', hk'⟩ := hfinds first' rest' hl'
    rw [← hleast] at hk'
    obtain rfl := subdivisionFrom_unique_of_perm hfilter hk hk'
    obtain ⟨counts', hcounts', hdivisor⟩ :=
      exists_counts_perm (fun _ _ => one_le_countOf) hperm hcounts
    refine ⟨counts'.map (· / commonDivisor counts), ?_, countedAlike_of_mapM hcounts hcounts' _⟩
    simp only [← hleast, hk', hquantum, hcounts', bind, Except.bind, hdivisor]
    rfl

/-! ## The fixed way -/

/-- The search for a multiplier of beats ends. -/
def FindsMultiplier (search : UnitSearch τ) (length : τ) (beats : Int) (l offsets : List τ) :
    Prop :=
  ∀ beat durations starts, beatOf length beats = .ok beat →
    l.mapM (Scalar.div · beat) = .ok durations → offsets.mapM (Scalar.div · beat) = .ok starts →
    ∃ k, fixedMultiplier search (durations ++ starts) = .ok k

/-- Where a bar could be measured by beats, the search for the multiplier had ended. -/
lemma findsMultiplier_of_ofBeats {length : τ} {beats : Int} {offsets : List τ}
    (h : ofBeats search length beats l offsets = .ok (units, unit)) :
    FindsMultiplier search length beats l offsets := by
  intro beat durations starts hbeat hdurations hstarts
  obtain ⟨beat', durations', starts', k, -, -, hbeat', hdurations', hstarts', hk, -⟩ :=
    ofBeats_eq_ok_iff.mp h
  obtain rfl := Except.ok.inj (hbeat.symm.trans hbeat')
  obtain rfl := Except.ok.inj (hdurations.symm.trans hdurations')
  obtain rfl := Except.ok.inj (hstarts.symm.trans hstarts')
  exact ⟨k, hk⟩

/-- In any order in which a multiplier is found, durations are counted alike and have the same
unit. -/
lemma ofBeats_perm {length : τ} {beats : Int} {offsets offsets' : List τ} (hperm : l.Perm l')
    (hoffsets : offsets.Perm offsets')
    (h : ofBeats search length beats l offsets = .ok (units, unit))
    (hfinds : FindsMultiplier search length beats l' offsets') :
    ∃ units', ofBeats search length beats l' offsets' = .ok (units', unit) ∧
      CountedAlike l l' units units' := by
  obtain ⟨beat, durations, starts, k, counts, part, hbeat, hdurations, hstarts, hk, hcounts,
    hpart, rfl, rfl⟩ := ofBeats_eq_ok_iff.mp h
  obtain ⟨durations', hdurations', hsame⟩ := exists_mapM_perm hperm hdurations
  obtain ⟨starts', hstarts', hsame'⟩ := exists_mapM_perm hoffsets hstarts
  obtain ⟨k', hk'⟩ := hfinds beat durations' starts' hbeat hdurations' hstarts'
  obtain rfl : k = k' := by
    obtain ⟨found, hfound, hvalue⟩ := exists_of_bind_eq_ok hk
    obtain ⟨found', hfound', hvalue'⟩ := exists_of_bind_eq_ok hk'
    obtain rfl := multiplierFrom_unique_of_perm (hsame.append hsame') hfound hfound'
    exact Except.ok.inj (hvalue.symm.trans hvalue')
  obtain ⟨counts', hcounts', hdivisor⟩ :=
    exists_counts_perm (fun _ _ => one_le_countOfBeats) hsame hcounts
  refine ⟨counts'.map (· / commonDivisor counts), ofBeats_eq_ok_iff.mpr ?_, ?_⟩
  · refine ⟨beat, durations', starts', k, counts', part, hbeat, hdurations', hstarts', hk',
      hcounts', hpart, ?_, ?_⟩ <;> rw [hdivisor]
  · exact countedAlike_of_mapM (mapM_bind_eq_ok hdurations hcounts)
      (mapM_bind_eq_ok hdurations' hcounts') _

end Units

/-! ## Bars -/

namespace Slot

variable {τ : Type} [Scalar τ] {m : Measure τ} {mode : ChordMode} {s g measured : Slot τ}
  {fragments fragments' : List (Fragment τ)} {units : List Int} {unit : τ}

/-- The search for the unit of a bar ends. -/
def FindsUnits (m : Measure τ) (fragments : List (Fragment τ)) : Prop :=
  match m.mode with
  | .minimal => Units.FindsSplit m.search (fragments.map (·.duration))
  | .fixed => Units.FindsMultiplier m.search m.length m.beats (fragments.map (·.duration))
      (fragments.map (·.offset))

/-- Where units are found, the search for them had ended, in either way of measuring. -/
lemma findsUnits_of_findUnits (h : findUnits m fragments = .ok (units, unit)) :
    FindsUnits m fragments := by
  unfold findUnits at h
  unfold FindsUnits
  cases hmode : m.mode with
  | minimal =>
    rw [hmode] at h
    obtain ⟨⟨units', unit'⟩, hfound, -⟩ := exists_of_bind_eq_ok h
    exact Units.findsSplit_of_ofDurations hfound
  | fixed =>
    rw [hmode] at h
    obtain ⟨⟨units', unit'⟩, hfound, -⟩ := exists_of_bind_eq_ok h
    exact Units.findsMultiplier_of_ofBeats hfound

/-- In any order in which the search ends, fragments are counted alike and have the same unit. -/
lemma findUnits_perm [Scalar.ComparesValues τ]
    (hfinite : ∀ f ∈ fragments, Scalar.IsFinite f.duration) (hperm : fragments.Perm fragments')
    (h : findUnits m fragments = .ok (units, unit)) (hfinds : FindsUnits m fragments') :
    ∃ units', findUnits m fragments' = .ok (units', unit) ∧
      Units.CountedAlike (fragments.map (·.duration)) (fragments'.map (·.duration))
        units units' := by
  have hdurations := hperm.map fun f => f.duration
  have hoffsets := hperm.map fun f => f.offset
  have hfinite' : ∀ d ∈ fragments.map (·.duration), Scalar.IsFinite d :=
    List.forall_mem_map.mpr hfinite
  unfold findUnits at h ⊢
  unfold FindsUnits at hfinds
  cases hmode : m.mode with
  | minimal =>
    rw [hmode] at h hfinds
    obtain ⟨⟨units', unit'⟩, hfound, h⟩ := exists_of_bind_eq_ok h
    cases h
    obtain ⟨units'', hfound', halike⟩ :=
      Units.ofDurations_perm hfinite' hdurations hfound hfinds
    refine ⟨units'', ?_, halike⟩
    simp only [hfound', bind, Except.bind]
    rfl
  | fixed =>
    rw [hmode] at h hfinds
    obtain ⟨⟨units', unit'⟩, hfound, h⟩ := exists_of_bind_eq_ok h
    cases h
    obtain ⟨units'', hfound', halike⟩ := Units.ofBeats_perm hdurations hoffsets hfound hfinds
    refine ⟨units'', ?_, halike⟩
    simp only [hfound', bind, Except.bind]
    rfl

/-- In any order in which the search ends, a bar is measured in the same way. -/
lemma exists_quantize_perm [Scalar.ComparesValues τ]
    (hfinite : ∀ f ∈ s.fragments, Scalar.IsFinite f.duration)
    (hperm : s.fragments.Perm fragments) (h : s.quantize m = .ok measured)
    (hfinds : FindsUnits m fragments) : ∃ done, measured.fragments.Perm done ∧
      { s with fragments }.quantize m = .ok { measured with fragments := done } := by
  by_cases hne : s.fragments = []
  · have hnil : fragments = [] := by
      rw [hne] at hperm
      exact hperm.nil_eq.symm
    have hquantize (s : Slot τ) (hnil : s.fragments = []) : s.quantize m = .ok s := by
      rw [quantize, hnil]
      rfl
    rw [hquantize s hne] at h
    cases h
    refine ⟨fragments, hperm, ?_⟩
    exact hquantize _ hnil
  · have hne' : fragments ≠ [] := fun hnil => hne (hperm.trans (hnil ▸ .refl _)).eq_nil
    obtain ⟨done, unit, target, hfound, hassigned, htarget, rfl⟩ := (quantize_eq_ok_iff hne).mp h
    obtain ⟨units', hfound', count, divisor, hcounted, hcounted'⟩ :=
      findUnits_perm hfinite hperm hfound hfinds
    rw [List.forall₂_map_left_iff, List.forall₂_map_right_iff] at hcounted
    -- What becomes of a fragment does not depend on the others, so it is found again.
    obtain ⟨done', hdone', hperm'⟩ :=
      List.perm_comp_forall₂ hperm.symm (forall₂_and hassigned hcounted)
    have hunits : units' = done'.map (·.units) := by
      refine List.right_unique_forall₂' Units.countedBy_unique hcounted' ?_
      rw [List.forall₂_map_left_iff, List.forall₂_map_right_iff]
      exact hdone'.imp fun _ _ h => h.2
    rw [hunits] at hfound'
    refine ⟨done', hperm'.symm, (quantize_eq_ok_iff hne').mpr ?_⟩
    exact ⟨done', unit, target, hfound', hdone'.imp fun _ _ h => h.1, htarget, rfl⟩

/-- Fragments in another order that are collected in the same spans become the same tokens. -/
lemma group_of_collect_eq
    (hcollect : Span.collect mode fragments = Span.collect mode s.fragments)
    (h : s.group mode = .ok g) : { s with fragments }.group mode = .ok { g with fragments } := by
  unfold group at h ⊢
  dsimp only at h ⊢
  rw [hcollect]
  split at h
  · rename_i hone
    cases h
    rw [if_pos hone]
  · rename_i hseveral
    rw [if_neg hseveral]
    obtain ⟨factor, hfactor, h⟩ := exists_of_bind_eq_ok h
    obtain ⟨target, htarget, h⟩ := exists_of_bind_eq_ok h
    cases h
    have htarget := mapError_eq_ok_iff.mp htarget
    simp only [mapError_eq_ok_iff.mp hfactor, Except.mapError, bind, Except.bind] at htarget ⊢
    rw [htarget]
    rfl

/-- A bar is measured and turned into tokens. -/
def measureAndGroup (m : Measure τ) (mode : ChordMode) (s : Slot τ) :
    Except (Stopped τ) (Slot τ) := do
  (← s.quantize m).group mode

/-- In any order in which the search ends, a bar becomes the same tokens. -/
lemma exists_measureAndGroup_perm [Scalar.ComparesValues τ]
    (hfinite : ∀ f ∈ s.fragments, Scalar.IsFinite f.duration)
    (hperm : s.fragments.Perm fragments) (h : s.measureAndGroup m mode = .ok g)
    (hfinds : FindsUnits m fragments) :
    ∃ done, { s with fragments }.measureAndGroup m mode = .ok { g with fragments := done } := by
  obtain ⟨measured, hmeasured, hgroup⟩ := exists_of_bind_eq_ok h
  obtain ⟨done, hdone, hquantize⟩ := exists_quantize_perm hfinite hperm hmeasured hfinds
  have hunits : ∀ f ∈ measured.fragments, 0 < f.units := by
    by_cases hne : s.fragments = []
    · rw [quantize, hne] at hmeasured
      cases hmeasured
      simp [hne]
    · exact ((measuredAs_quantize hmeasured hne).counted hne).one_le
  refine ⟨done, ?_⟩
  unfold measureAndGroup
  rw [hquantize]
  exact group_of_collect_eq (Span.collect_perm hunits hdone).symm hgroup

/-- Every test of the search for a unit has an answer, which it has unless some number gets out of
the range of its type. -/
structure Decided (m : Measure τ) (fragments : List (Fragment τ)) : Prop where
  /-- Whether a duration is nearly a whole number of parts of another one. -/
  fits : m.mode = .minimal → ∀ f ∈ fragments, Units.epsilon < f.duration → ∀ g ∈ fragments,
    Units.epsilon < g.duration → ∀ k ∈ Units.subdivisions,
      ∃ b, Units.fits m.search.tolerance f.duration k g.duration = .ok b
  /-- Whether multiples of beats are nearly whole. -/
  isNearlyWhole : m.mode = .fixed → ∀ beat, Units.beatOf m.length m.beats = .ok beat →
    ∀ f ∈ fragments, ∀ x, Scalar.div f.duration beat = .ok x ∨ Scalar.div f.offset beat = .ok x →
      ∀ k, 1 ≤ k → k ≤ m.search.maxMultiplier →
        ∃ b, Units.isNearlyWhole m.search.tolerance k x = .ok b

/-- The tests are asked of single durations and of pairs, so the order of the fragments does not
matter to them. -/
lemma Decided.of_perm (h : Decided m fragments) (hperm : fragments.Perm fragments') :
    Decided m fragments' where
  fits := by simpa only [hperm.mem_iff] using h.fits
  isNearlyWhole := by simpa only [hperm.mem_iff] using h.isNearlyWhole

/-- Where every test has an answer, the search ends. -/
lemma Decided.findsUnits (h : Decided m fragments) : FindsUnits m fragments := by
  unfold FindsUnits
  cases hmode : m.mode with
  | minimal =>
    intro first rest hfilter
    have hlasting : ∀ d ∈ first :: rest, ∃ f ∈ fragments, f.duration = d ∧ Units.epsilon < d := by
      intro d hd
      rw [← hfilter] at hd
      obtain ⟨hd, htime⟩ := List.mem_filter.mp hd
      obtain ⟨f, hf, rfl⟩ := List.mem_map.mp hd
      exact ⟨f, hf, rfl, of_decide_eq_true htime⟩
    obtain ⟨f, hf, heq, htime⟩ := hlasting _ (Units.least_mem first rest)
    refine Units.exists_subdivisionFrom_of_answers fun k hk d hd => ?_
    obtain ⟨g, hg, rfl, htime'⟩ := hlasting d hd
    rw [← heq] at htime ⊢
    exact h.fits hmode f hf htime g hg htime' k hk
  | fixed =>
    intro beat durations starts hbeat hdurations hstarts
    obtain ⟨found, hfound⟩ : ∃ found, Units.multiplierFrom m.search.tolerance (durations ++ starts)
        m.search.maxMultiplier.toNat 1 = .ok found := by
      refine Units.exists_multiplierFrom_of_answers fun k hle hlt x hx => ?_
      obtain ⟨f, hf, hdiv⟩ : ∃ f ∈ fragments,
          Scalar.div f.duration beat = .ok x ∨ Scalar.div f.offset beat = .ok x := by
        rcases List.mem_append.mp hx with hx | hx
        · obtain ⟨d, hd, hdiv⟩ := exists_mem_of_forall₂ (mapM_eq_ok_iff.mp hdurations) hx
          obtain ⟨f, hf, rfl⟩ := List.mem_map.mp hd
          exact ⟨f, hf, .inl hdiv⟩
        · obtain ⟨o, ho, hdiv⟩ := exists_mem_of_forall₂ (mapM_eq_ok_iff.mp hstarts) hx
          obtain ⟨f, hf, rfl⟩ := List.mem_map.mp ho
          exact ⟨f, hf, .inr hdiv⟩
      exact h.isNearlyWhole hmode beat hbeat f hf x hdiv k hle (by omega)
    refine ⟨found.getD m.search.maxMultiplier, ?_⟩
    unfold Units.fixedMultiplier
    rw [hfound]
    rfl

/-- The search ends in an order in which a bar becomes tokens. -/
lemma findsUnits_of_measureAndGroup (h : s.measureAndGroup m mode = .ok g) :
    FindsUnits m s.fragments := by
  by_cases hne : s.fragments = []
  · have hdecided : Decided m s.fragments := by
      rw [hne]
      exact ⟨by simp, by simp⟩
    exact hdecided.findsUnits
  · obtain ⟨measured, hmeasured, -⟩ := exists_of_bind_eq_ok h
    obtain ⟨done, unit, target, hfound, -⟩ := (quantize_eq_ok_iff hne).mp hmeasured
    exact findsUnits_of_findUnits hfound

/-- The order of a bar's fragments does not matter. Two orders that both give tokens give the same,
with the same unit and the same full length; and where every test of the search for the unit has an
answer, one order gives tokens if the other one does. -/
theorem measureAndGroup_perm [Scalar.ComparesValues τ] (m : Measure τ) (mode : ChordMode)
    (hfinite : ∀ f ∈ s.fragments, Scalar.IsFinite f.duration)
    (hperm : s.fragments.Perm fragments) :
    (∀ g g', s.measureAndGroup m mode = .ok g →
      { s with fragments }.measureAndGroup m mode = .ok g' →
        g'.tokens = g.tokens ∧ g'.unit = g.unit ∧ g'.target = g.target) ∧
    (Decided m s.fragments → ((∃ g, s.measureAndGroup m mode = .ok g) ↔
      ∃ g', { s with fragments }.measureAndGroup m mode = .ok g')) := by
  constructor
  · intro g g' h h'
    obtain ⟨done, hsame⟩ := exists_measureAndGroup_perm hfinite hperm h
      (findsUnits_of_measureAndGroup h')
    rw [hsame] at h'
    obtain rfl := Except.ok.inj h'
    exact ⟨rfl, rfl, rfl⟩
  · intro hdecided
    constructor
    · rintro ⟨g, h⟩
      obtain ⟨done, h'⟩ := exists_measureAndGroup_perm hfinite hperm h
        (hdecided.of_perm hperm).findsUnits
      exact ⟨_, h'⟩
    · rintro ⟨g', h'⟩
      have hfinite' : ∀ f ∈ fragments, Scalar.IsFinite f.duration := fun f hf =>
        hfinite f (hperm.mem_iff.mpr hf)
      obtain ⟨done, h⟩ := exists_measureAndGroup_perm (s := { s with fragments }) hfinite'
        hperm.symm h' hdecided.findsUnits
      exact ⟨_, h⟩

/-- In exact arithmetic every test has an answer. -/
lemma decided_rat (m : Measure Rat) (fragments : List (Fragment Rat)) : Decided m fragments where
  fits _ f _ hf g _ _ k hk := by
    have hpos : ∀ k ∈ Units.subdivisions, 0 < k := by decide
    have htime : 1 / 1000000000 < f.duration := hf
    have hminimum : 0 < f.duration := lt_trans (by norm_num) htime
    obtain ⟨b, hb, -⟩ := Units.exists_fits m.search.tolerance hminimum (hpos k hk) g.duration
    exact ⟨b, hb⟩
  isNearlyWhole _ _ _ _ _ x _ k _ _ := by
    unfold Units.isNearlyWhole
    simp only [Scalar.rat_roundHalfUp, Scalar.rat_ofInt, bind, Except.bind]
    exact ⟨_, rfl⟩

/-- Two notes of a chord, a rest and another note, in no order. -/
def shuffled : Slot Rat where
  index := 0
  fragments := [
    { offset := 750, duration := 250, pitch := some 4, chord := some (.number 1) },
    { offset := 0, duration := 500, pitch := some 7, chord := some (.number 0) },
    { offset := 500, duration := 250 },
    { offset := 0, duration := 505, pitch := some 0, chord := some (.number 0) }]
  unit := 0

/-- The bar when it is measured. -/
def shuffledUnits : Slot Rat where
  index := 0
  fragments := [
    { offset := 750, duration := 250, pitch := some 4, chord := some (.number 1), units := 1
      offsetUnits := 3 },
    { offset := 0, duration := 500, pitch := some 7, chord := some (.number 0), units := 2 },
    { offset := 500, duration := 250, units := 1, offsetUnits := 2 },
    { offset := 0, duration := 505, pitch := some 0, chord := some (.number 0), units := 2 }]
  unit := 250
  target := 4

/-- They may as well be given the other way round. -/
theorem measureAndGroup_perm_reverse :
    (∀ f ∈ shuffled.fragments, Scalar.IsFinite f.duration) ∧
    shuffled.fragments.Perm shuffled.fragments.reverse ∧
    Decided briefBars shuffled.fragments ∧
    (∀ g g', shuffled.measureAndGroup briefBars .group = .ok g →
      { shuffled with fragments := shuffled.fragments.reverse }.measureAndGroup briefBars .group =
        .ok g' → g'.tokens = g.tokens ∧ g'.unit = g.unit ∧ g'.target = g.target) ∧
    ((∃ g, shuffled.measureAndGroup briefBars .group = .ok g) ↔
      ∃ g', { shuffled with fragments := shuffled.fragments.reverse }.measureAndGroup briefBars
        .group = .ok g') ∧
    shuffled.measureAndGroup briefBars .group =
      .ok { shuffledUnits with tokens := [.note [0, 7] 2, .rest 1, .note [4] 1] } := by
  have hfinite : ∀ f ∈ shuffled.fragments, Scalar.IsFinite f.duration := fun f _ =>
    Scalar.isFinite_rat f.duration
  have hperm : shuffled.fragments.Perm shuffled.fragments.reverse := (List.reverse_perm _).symm
  have hdecided := decided_rat briefBars shuffled.fragments
  obtain ⟨hsame, hsucceeds⟩ :=
    measureAndGroup_perm briefBars .group hfinite hperm
  have hquantize : shuffled.quantize briefBars = .ok shuffledUnits := by
    cbv
  have hlaid : shuffledUnits.laid .group = [⟨0, 2, [0, 7], false, 2⟩, ⟨2, 1, [], true, 3⟩,
      ⟨3, 1, [4], false, 4⟩] := by
    cbv
  refine ⟨hfinite, hperm, hdecided, hsame, hsucceeds hdecided, ?_⟩
  unfold measureAndGroup
  rw [hquantize]
  show shuffledUnits.group .group = _
  unfold group
  rw [← laid, hlaid]
  rfl

/-! ## Beyond the range of the numbers -/

/-- Three notes that begin together. Twice the longest one is beyond the range of the binary
floating-point numbers, and no split of the shortest one fits the second. -/
def vast : Slot Float where
  index := 0
  fragments := [
    { offset := 0, duration := 1, pitch := some 0 },
    { offset := 0, duration := 1.1875, pitch := some 2 },
    { offset := 0, duration := 8.98846567431158e307, pitch := some 4 }]
  unit := 0

/-- The bar when it is measured. -/
def vastUnits : Slot Float where
  index := 0
  fragments := [
    { offset := 0, duration := 1, pitch := some 0, units := 1 },
    { offset := 0, duration := 1.1875, pitch := some 2, units := 1 },
    { offset := 0, duration := 8.98846567431158e307, pitch := some 4, units := 2 ^ 1023 }]
  unit := 1
  target := 2 ^ 1023

/-- The longest note fills a bar. -/
def vastBars : Measure Float where
  length := 8.98846567431158e307
  search := { tolerance := 0.01 }

/-- The second note refuses every split, and the longest one is not looked at. -/
lemma measureAndGroup_vast : vast.measureAndGroup vastBars .timing = .ok { vastUnits with
    tokens := [.note [0, 2, 4] 1], unit := 8.98846567431158e307, target := 1 } := by
  have hquantize : vast.quantize vastBars = .ok vastUnits := by
    decide +kernel
  have hkeyed : (Span.keyed .timing vastUnits.fragments).map (·.2) =
      [⟨0, 1, [0, 2], false, 1⟩, ⟨0, 2 ^ 1023, [4], false, 2 ^ 1023⟩] := by
    decide +kernel
  have hcollect : Span.collect .timing vastUnits.fragments =
      [⟨0, 1, [0, 2], false, 1⟩, ⟨0, 2 ^ 1023, [4], false, 2 ^ 1023⟩] := by
    rw [Span.collect_eq_keyed, hkeyed]
    exact List.mergeSort_of_pairwise (by decide +kernel)
  unfold measureAndGroup
  rw [hquantize]
  show vastUnits.group .timing = _
  unfold group
  rw [hcollect]
  decide +kernel

/-- Given the other way round, the longest note is asked whether two parts fit it. -/
lemma quantize_vast_reverse :
    { vast with fragments := vast.fragments.reverse }.quantize vastBars =
      .error ⟨.infinite, { vast with fragments := vast.fragments.reverse }⟩ := by
  decide +kernel

/-- Of two orders of the same finite fragments, one may give tokens where the other gives none. -/
theorem not_forall_perm :
    ¬ ∀ (m : Measure Float) (mode : ChordMode) (s : Slot Float)
        (fragments : List (Fragment Float)), Scalar.IsFinite m.length →
      (∀ f ∈ s.fragments, Scalar.IsFinite f.offset ∧ Scalar.IsFinite f.duration) →
      s.fragments.Perm fragments → ∀ g, s.measureAndGroup m mode = .ok g →
        ∃ g', { s with fragments }.measureAndGroup m mode = .ok g' ∧
          g'.tokens = g.tokens ∧ g'.unit = g.unit ∧ g'.target = g.target := by
  intro hall
  have hlength : Scalar.IsFinite vastBars.length := by decide +kernel
  have hfinite : ∀ f ∈ vast.fragments,
      Scalar.IsFinite f.offset ∧ Scalar.IsFinite f.duration := by
    decide +kernel
  obtain ⟨g', h', -⟩ := hall vastBars .timing vast vast.fragments.reverse hlength hfinite
    (List.reverse_perm _).symm _ measureAndGroup_vast
  obtain ⟨measured, hmeasured, -⟩ := exists_of_bind_eq_ok h'
  rw [quantize_vast_reverse] at hmeasured
  cases hmeasured

end Slot

end PatternScore
