import PatternScore.Proofs.Bar.DurationUnit
import PatternScore.Proofs.Bar.Measuring

/-!
# How near the minimal unit comes

The minimal way of measuring splits the shortest of the durations that take time, and takes the
first split by which every duration is nearly a whole number of parts, or no split
(`Units.exists_subdivisionFrom`). Each duration is then the nearest whole number of parts, of which
none is zero, since no part is longer than the shortest duration. The common divisor of these
numbers lengthens the unit by as much as it shortens them, so the error of a duration is that of its
parts: in proportion to the duration if there is a split, and half the shortest duration at most if
there is none (`Units.ofDurations_near`). But nothing divides them all, since it would leave a
coarser split that fits as well (`Units.Splits.commonDivisor_eq_one`). So the unit is a part, and
not longer than anything that takes time, which is what a bar keeps of it
(`Slot.exists_quantize_minimal`).
-/

namespace PatternScore

namespace Units

variable {search : UnitSearch Rat} {tolerance minimum step d : Rat} {durations : List Rat}
  {splits : List Int} {k : Int}

/-! ## Splits -/

/-- The durations that take time. -/
def lasting (durations : List Rat) : List Rat :=
  durations.filter (1 / 1000000000 < ·)

/-- A duration is a whole number of steps, up to an error in proportion to the duration. -/
def Near (tolerance step d : Rat) : Prop :=
  ∃ n : Int, |d - n * step| ≤ tolerance * d

/-- Of some splits of the shortest duration, those up to the limit that bring every duration near a
whole number of parts. -/
def fitting (search : UnitSearch Rat) (minimum : Rat) (durations : List Rat)
    (splits : List Int) : Set Int :=
  {k | k ∈ splits ∧ k ≤ search.maxSubdivision ∧
    ∀ d ∈ durations, Near search.tolerance (minimum / k) d}

/-- Each of the durations that take time is its number of units, up to an error that it allows. -/
def ErrorWithin (bound : Rat → Rat) (unit : Rat) (durations : List Rat) (units : List Int) : Prop :=
  List.Forall₂ (fun (d : Rat) (n : Int) => 1 / 1000000000 < d → |d - n * unit| ≤ bound d)
    durations units

/-- A duration takes time if it is longer than a billionth of a millisecond. -/
lemma mem_lasting : d ∈ lasting durations ↔ d ∈ durations ∧ 1 / 1000000000 < d := by
  simp [lasting]

/-- What takes time is longer than nothing. -/
lemma pos_of_mem_lasting (h : d ∈ lasting durations) : 0 < d := by
  have hlong := (mem_lasting.mp h).2
  exact lt_trans (by norm_num) hlong

/-- A duration is near a whole number of steps if it is near the nearest one. -/
lemma near_iff (hstep : 0 < step) :
    Near tolerance step d ↔ |d - ⌊d / step + 1 / 2⌋ * step| ≤ tolerance * d := by
  have herror (n : Int) : |d - n * step| = |d / step - n| * step := by
    rw [← abs_of_pos hstep, ← abs_mul, sub_mul, abs_of_pos hstep, div_mul_cancel₀ d hstep.ne']
  constructor
  · rintro ⟨n, hn⟩
    refine le_trans ?_ hn
    rw [herror, herror, ← round_eq]
    exact mul_le_mul_of_nonneg_right (round_le _ n) hstep.le
  · intro h
    exact ⟨_, h⟩

/-- The test of a split asks whether a duration is near a whole number of parts. -/
lemma exists_fits (tolerance : Rat) (hminimum : 0 < minimum) (hk : 0 < k) (d : Rat) :
    ∃ b, fits tolerance minimum k d = .ok b ∧ (b = true ↔ Near tolerance (minimum / k) d) := by
  have hkRat : (0 : Rat) < k := by exact_mod_cast hk
  have hparts : d / (minimum / k) = d / minimum * k := by field_simp
  set count := ⌊d / minimum * (k : Rat) + 1 / 2⌋ with hcount
  have herror : |d - count * (minimum / k)| = |d / minimum - (count : Rat) / k| * minimum := by
    rw [← abs_of_pos hminimum, ← abs_mul, abs_of_pos hminimum]
    congr 1
    field_simp
  have hsize : tolerance * d = tolerance * (d / minimum) * minimum := by field_simp
  refine ⟨!decide (tolerance * (d / minimum) < |d / minimum - (count : Rat) / k|), ?_, ?_⟩
  · unfold fits
    simp only [Scalar.rat_div hminimum.ne', Scalar.rat_ratio hk.ne', Scalar.rat_roundHalfUp,
      Scalar.rat_nearest, Scalar.rat_abs, bind, Except.bind]
    rfl
  · rw [near_iff (div_pos hminimum hkRat), hparts, ← hcount, herror, hsize,
      mul_le_mul_iff_left₀ hminimum]
    simp

/-- All durations are tested. -/
lemma exists_allM_fits (tolerance : Rat) (hminimum : 0 < minimum) (hk : 0 < k)
    (durations : List Rat) :
    ∃ b, durations.allM (fits tolerance minimum k) = .ok b ∧
      (b = true ↔ ∀ d ∈ durations, Near tolerance (minimum / k) d) := by
  choose fitting hfits hnear using exists_fits tolerance hminimum hk
  refine ⟨durations.all fitting, allM_eq_ok hfits durations, ?_⟩
  rw [List.all_eq_true]
  exact forall₂_congr fun d _ => hnear d

/-- A split that does not fit may be left out. -/
lemma fitting_cons_of_not (h : ¬ ∀ d ∈ durations, Near search.tolerance (minimum / k) d) :
    fitting search minimum durations (k :: splits) = fitting search minimum durations splits := by
  ext n
  constructor
  · rintro ⟨hn, hlimit, hnear⟩
    rcases List.mem_cons.mp hn with rfl | hn
    · exact absurd hnear h
    · exact ⟨hn, hlimit, hnear⟩
  · rintro ⟨hn, hlimit, hnear⟩
    exact ⟨List.mem_cons_of_mem _ hn, hlimit, hnear⟩

/-- The search finds the least split that fits, or no split. -/
lemma exists_subdivisionFrom (search : UnitSearch Rat) (hminimum : 0 < minimum)
    (durations : List Rat) (hpos : ∀ n ∈ splits, 0 < n) (hsorted : splits.Pairwise (· < ·)) :
    ∃ k, subdivisionFrom search minimum durations splits = .ok k ∧ 0 < k ∧
      (IsLeast (fitting search minimum durations splits) k ∨
        fitting search minimum durations splits = ∅ ∧ k = 1) := by
  induction splits with
  | nil =>
    refine ⟨1, rfl, one_pos, .inr ⟨Set.eq_empty_iff_forall_notMem.mpr ?_, rfl⟩⟩
    rintro n ⟨hn, -⟩
    cases hn
  | cons k finer ih =>
    obtain ⟨hk, hpos⟩ := List.forall_mem_cons.mp hpos
    obtain ⟨hfirst, hsorted⟩ := List.pairwise_cons.mp hsorted
    have hleast : ∀ n ∈ k :: finer, k ≤ n :=
      List.forall_mem_cons.mpr ⟨le_rfl, fun n hn => (hfirst n hn).le⟩
    rw [subdivisionFrom]
    split
    · rename_i hlimit
      refine ⟨1, rfl, one_pos, .inr ⟨Set.eq_empty_iff_forall_notMem.mpr ?_, rfl⟩⟩
      rintro n ⟨hn, hle, -⟩
      exact absurd ((hleast n hn).trans hle) (not_le.mpr hlimit)
    · rename_i hlimit
      obtain ⟨b, hall, hnear⟩ := exists_allM_fits search.tolerance hminimum hk durations
      rw [hall]
      cases b with
      | true =>
        refine ⟨k, rfl, hk, .inl ⟨⟨List.mem_cons_self, not_lt.mp hlimit, hnear.mp rfl⟩, ?_⟩⟩
        exact fun n hn => hleast n hn.1
      | false =>
        rw [fitting_cons_of_not (mt hnear.mpr Bool.false_ne_true)]
        exact ih hpos hsorted

/-! ## Counts -/

section Least

variable {τ : Type} [Scalar τ]

/-- The least of some durations is one of them. -/
lemma least_mem (first : τ) (rest : List τ) : least first rest ∈ first :: rest := by
  induction rest generalizing first with
  | nil => exact List.mem_singleton_self first
  | cons d rest ih =>
    rcases List.mem_cons.mp (ih (Scalar.min first d)) with heq | hrest
    · have hleast : least first (d :: rest) = Scalar.min first d := heq
      rw [hleast]
      rcases Scalar.min_eq_or first d with hmin | hmin
      · rw [hmin]
        exact List.mem_cons_self
      · rw [hmin]
        exact List.mem_cons_of_mem _ List.mem_cons_self
    · exact List.mem_cons_of_mem _ (List.mem_cons_of_mem _ hrest)

/-- No finite duration is smaller than the least of them. -/
lemma value_least_le [Scalar.ComparesValues τ] {first : τ} {rest : List τ}
    (hfinite : ∀ x ∈ first :: rest, Scalar.IsFinite x) {p q : Rat}
    (hleast : Scalar.value (least first rest) = .finite q) :
    ∀ x ∈ first :: rest, Scalar.value x = .finite p → q ≤ p := by
  induction rest generalizing first p with
  | nil =>
    refine List.forall_mem_singleton.mpr fun hp => ?_
    exact (Value.finite.inj (hleast.symm.trans hp)).le
  | cons d rest ih =>
    obtain ⟨⟨r, hr⟩, hmore⟩ := List.forall_mem_cons.mp hfinite
    obtain ⟨⟨t, ht⟩, hrest⟩ := List.forall_mem_cons.mp hmore
    -- The smaller one of the first two takes the place of both.
    have hmin := Scalar.value_min hr ht
    have hall : ∀ x ∈ Scalar.min first d :: rest, Scalar.IsFinite x :=
      List.forall_mem_cons.mpr ⟨⟨_, hmin⟩, hrest⟩
    have hle : q ≤ min r t := ih hall hleast _ List.mem_cons_self hmin
    obtain ⟨hler, hlet⟩ := le_min_iff.mp hle
    refine List.forall_mem_cons.mpr ⟨fun hp => ?_, List.forall_mem_cons.mpr ⟨fun hp => ?_, ?_⟩⟩
    · exact hler.trans (Value.finite.inj (hr.symm.trans hp)).le
    · exact hlet.trans (Value.finite.inj (ht.symm.trans hp)).le
    · exact fun x hx => ih hall hleast x (List.mem_cons_of_mem _ hx)

end Least

/-- The least of some exact durations. -/
lemma isLeast_least (first : Rat) (rest : List Rat) :
    IsLeast {d | d ∈ first :: rest} (least first rest) := by
  refine ⟨least_mem first rest, fun d hd => ?_⟩
  exact value_least_le (fun x _ => Scalar.isFinite_rat x) rfl d hd rfl

/-- The nearest number of parts of a duration that takes time; any other has one. -/
def nearestCount (part d : Rat) : Int :=
  if 1 / 1000000000 < d then ⌊d / part + 1 / 2⌋ else 1

/-- What is not shorter than a part has at least one of them. -/
lemma one_le_nearestCount {part : Rat} (hpart : 0 < part)
    (h : 1 / 1000000000 < d → part ≤ d) : 1 ≤ nearestCount part d := by
  unfold nearestCount
  split
  · rename_i hlong
    have hone : 1 ≤ d / part := (one_le_div hpart).mpr (h hlong)
    rw [Int.le_floor, Int.cast_one]
    linarith
  · exact le_rfl

/-- The count of a duration is its nearest number of parts, which is one at least if no part is
longer than it. -/
lemma countOf_eq {part : Rat} (hpart : 0 < part) (h : 1 / 1000000000 < d → part ≤ d) :
    countOf part d = .ok (nearestCount part d) := by
  have hone := one_le_nearestCount hpart h
  unfold nearestCount at hone ⊢
  unfold countOf
  by_cases hlong : 1 / 1000000000 < d
  · have hlong' : epsilon < d := hlong
    rw [if_pos hlong] at hone
    rw [if_pos hlong', if_pos hlong]
    simp only [Scalar.rat_div hpart.ne', Scalar.rat_roundHalfUp, bind, Except.bind]
    split
    · rfl
    · rename_i hfew
      exact congrArg Except.ok (le_antisymm hone (not_lt.mp hfew))
  · have hshort : ¬ epsilon < d := hlong
    rw [if_neg hshort, if_neg hlong]

/-- All splits are positive. -/
lemma split_pos (hk : k ∈ [1, 2, 3, 4, 6, 8]) : 0 < k := by
  have hsplits : ∀ k ∈ [(1 : Int), 2, 3, 4, 6, 8], 0 < k := by decide
  exact hsplits k hk

/-- What divides a split is a split. -/
lemma mem_splits_of_dvd {j : Int} (hk : k ∈ [1, 2, 3, 4, 6, 8]) (hj : 0 < j) (hdvd : j ∣ k) :
    j ∈ [1, 2, 3, 4, 6, 8] := by
  have hbound : ∀ k ∈ [(1 : Int), 2, 3, 4, 6, 8], k ≤ 8 := by decide
  have hsplits : ∀ k ∈ [(1 : Int), 2, 3, 4, 6, 8], ∀ j ∈ Finset.Icc (1 : Int) 8, j ∣ k →
      j ∈ [(1 : Int), 2, 3, 4, 6, 8] := by decide
  have hle : j ≤ 8 := (Int.le_of_dvd (split_pos hk) hdvd).trans (hbound k hk)
  exact hsplits k hk j (Finset.mem_Icc.mpr ⟨hj, hle⟩) hdvd

/-- The shortest of the durations that take time, and the split of it that is found. -/
structure Splits (search : UnitSearch Rat) (durations : List Rat) (minimum : Rat) (k : Int) :
    Prop where
  /-- The shortest of the durations. -/
  isLeast : IsLeast {d | d ∈ lasting durations} minimum
  /-- The number of parts. -/
  pos : 0 < k
  /-- The least split that fits, or none. -/
  split : IsLeast (fitting search minimum (lasting durations) [1, 2, 3, 4, 6, 8]) k ∨
    fitting search minimum (lasting durations) [1, 2, 3, 4, 6, 8] = ∅ ∧ k = 1

namespace Splits

variable (h : Splits search durations minimum k)

include h

/-- The shortest duration that takes time is longer than nothing. -/
lemma minimum_pos : 0 < minimum :=
  pos_of_mem_lasting h.isLeast.1

/-- So is a part of it. -/
lemma part_pos : 0 < minimum / k :=
  div_pos h.minimum_pos (by exact_mod_cast h.pos)

/-- No duration is shorter than a part. -/
lemma part_le (hd : d ∈ durations) (hlong : 1 / 1000000000 < d) : minimum / k ≤ d := by
  have hone : (1 : Rat) ≤ k := by exact_mod_cast h.pos
  exact (div_le_self h.minimum_pos.le hone).trans (h.isLeast.2 (mem_lasting.mpr ⟨hd, hlong⟩))

/-- Every duration has a part. -/
lemma counts_pos : ∀ n ∈ durations.map (nearestCount (minimum / k)), 0 < n :=
  List.forall_mem_map.mpr fun _ hd => one_le_nearestCount h.part_pos (h.part_le hd)

/-- There is something to count, since something takes time. -/
lemma counts_ne_nil : durations.map (nearestCount (minimum / k)) ≠ [] := by
  intro hnil
  have hmem := (mem_lasting.mp h.isLeast.1).1
  rw [List.map_eq_nil_iff.mp hnil] at hmem
  cases hmem

/-- The shortest duration has as many parts as it was split into. -/
lemma nearestCount_minimum : nearestCount (minimum / k) minimum = k := by
  have hminimum := h.minimum_pos
  have hkRat : (0 : Rat) < k := by exact_mod_cast h.pos
  have hparts : minimum / (minimum / k) = (k : Rat) := by field_simp
  rw [nearestCount, if_pos (mem_lasting.mp h.isLeast.1).2, hparts]
  exact Except.ok.inj (Scalar.roundHalfUp_intCast k)

/-- What divided all counts would leave a coarser split that fits as well. -/
lemma commonDivisor_eq_one :
    commonDivisor (durations.map (nearestCount (minimum / k))) = 1 := by
  have hpos := commonDivisor_pos h.counts_ne_nil h.counts_pos
  have hdvd := fun (d : Rat) (hd : d ∈ durations) =>
    commonDivisor_dvd (List.mem_map_of_mem (f := nearestCount (minimum / k)) hd)
  set divisor := commonDivisor (durations.map (nearestCount (minimum / k)))
  have hsplit : divisor ∣ k := by
    have hshortest := hdvd minimum (mem_lasting.mp h.isLeast.1).1
    rwa [h.nearestCount_minimum] at hshortest
  rcases h.split with ⟨⟨hk, hlimit, hnear⟩, hleast⟩ | ⟨-, rfl⟩
  · obtain ⟨j, hj⟩ := hsplit
    have hjpos : 0 < j := by
      have hproduct := h.pos
      rw [hj] at hproduct
      exact pos_of_mul_pos_right hproduct hpos.le
    have hle : j ≤ k := Int.le_of_dvd h.pos ⟨divisor, by rw [hj, mul_comm]⟩
    have hcoarser : ∀ d ∈ lasting durations, Near search.tolerance (minimum / j) d := by
      intro d hd
      obtain ⟨hmem, hlong⟩ := mem_lasting.mp hd
      obtain ⟨n, hn⟩ := hdvd d hmem
      rw [nearestCount, if_pos hlong] at hn
      have hdivisorRat : (divisor : Rat) ≠ 0 := by exact_mod_cast hpos.ne'
      have hjRat : (j : Rat) ≠ 0 := by exact_mod_cast hjpos.ne'
      have hparts : ((divisor * n : Int) : Rat) * (minimum / k) = n * (minimum / j) := by
        rw [hj]
        push_cast
        field_simp
      have herror := (near_iff h.part_pos).mp (hnear d hd)
      rw [hn, hparts] at herror
      exact ⟨n, herror⟩
    have hmem := mem_splits_of_dvd hk hjpos ⟨divisor, by rw [hj, mul_comm]⟩
    have hge := hleast ⟨hmem, hle.trans hlimit, hcoarser⟩
    have hone : divisor * j = 1 * j := by
      rw [one_mul, ← hj]
      exact le_antisymm hge hle
    exact mul_right_cancel₀ hjpos.ne' hone
  · exact Int.eq_one_of_dvd_one hpos.le hsplit

/-- The common divisor of the counts lengthens the unit by as much as it shortens them, so the error
of a duration is that of the nearest number of parts. -/
lemma errorWithin {bound : Rat → Rat} (hbound : ∀ d ∈ lasting durations,
      |d - ⌊d / (minimum / k) + 1 / 2⌋ * (minimum / k)| ≤ bound d) :
    ErrorWithin bound (minimum / k * commonDivisor (durations.map (nearestCount (minimum / k))))
      durations ((durations.map (nearestCount (minimum / k))).map
        (· / commonDivisor (durations.map (nearestCount (minimum / k))))) := by
  unfold ErrorWithin
  rw [List.map_map, List.forall₂_map_right_iff, List.forall₂_same]
  intro d hd htime
  have hdvd := commonDivisor_dvd (List.mem_map_of_mem (f := nearestCount (minimum / k)) hd)
  have hpos := commonDivisor_pos h.counts_ne_nil h.counts_pos
  set divisor := commonDivisor (durations.map (nearestCount (minimum / k)))
  have hcount : nearestCount (minimum / k) d = ⌊d / (minimum / k) + 1 / 2⌋ := if_pos htime
  have hdivisor : (divisor : Rat) ≠ 0 := by exact_mod_cast hpos.ne'
  have hunits : ((nearestCount (minimum / k) d / divisor : Int) : Rat) *
      (minimum / k * divisor) = ⌊d / (minimum / k) + 1 / 2⌋ * (minimum / k) := by
    rw [Int.cast_div hdvd hdivisor, hcount]
    field_simp
  rw [Function.comp_apply, hunits]
  exact hbound d (mem_lasting.mpr ⟨hd, htime⟩)

end Splits

/-- The units are the nearest numbers of parts, divided by what divides them all. -/
lemma exists_splits (search : UnitSearch Rat) (hne : lasting durations ≠ []) :
    ∃ minimum k, Splits search durations minimum k ∧
      ofDurations search durations =
        .ok ((durations.map (nearestCount (minimum / k))).map
            (· / commonDivisor (durations.map (nearestCount (minimum / k)))),
          minimum / k * commonDivisor (durations.map (nearestCount (minimum / k)))) := by
  obtain ⟨first, rest, hlasting⟩ := List.exists_cons_of_ne_nil hne
  have hminimum := isLeast_least first rest
  rw [← hlasting] at hminimum
  have hpos : ∀ n ∈ subdivisions, 0 < n := by decide
  have hsorted : subdivisions.Pairwise (· < ·) := by decide
  obtain ⟨k, hsubdivision, hk, hsplit⟩ := exists_subdivisionFrom search
    (pos_of_mem_lasting hminimum.1) (lasting durations) hpos hsorted
  have h : Splits search durations (least first rest) k := ⟨hminimum, hk, hsplit⟩
  have hkRat : (k : Rat) ≠ 0 := by exact_mod_cast hk.ne'
  have hcounts := mapM_eq_ok (f := countOf (least first rest / (k : Rat))) (l := durations)
    fun d hd => countOf_eq h.part_pos (h.part_le hd)
  refine ⟨_, k, h, ?_⟩
  have hfilter : (durations.filter fun d => decide (epsilon < d)) = first :: rest := hlasting
  rw [hlasting] at hsubdivision
  unfold ofDurations
  rw [hfilter]
  simp only [hsubdivision, Scalar.rat_nearest, Scalar.rat_div hkRat, hcounts, bind,
    Except.bind]
  rfl

/-- The units of durations are the nearest numbers of parts of the shortest one. -/
lemma exists_splits_counts (search : UnitSearch Rat) (hne : lasting durations ≠ []) :
    ∃ minimum k, Splits search durations minimum k ∧
      ofDurations search durations =
        .ok (durations.map (nearestCount (minimum / k)), minimum / k) := by
  obtain ⟨minimum, k, hsplits, heq⟩ := exists_splits search hne
  refine ⟨minimum, k, hsplits, ?_⟩
  rw [heq, hsplits.commonDivisor_eq_one]
  simp

/-- Durations of which none takes time have one unit each. -/
lemma ofDurations_of_lasting_eq_nil (search : UnitSearch Rat) (h : lasting durations = []) :
    ofDurations search durations = .ok (durations.map fun _ => 1, 0) := by
  have hfilter : (durations.filter fun d => decide (epsilon < d)) = [] := h
  unfold ofDurations
  rw [hfilter]
  rfl

/-- The minimal way finds a unit for any durations. -/
lemma exists_ofDurations (search : UnitSearch Rat) (durations : List Rat) :
    ∃ units unit, ofDurations search durations = .ok (units, unit) := by
  by_cases hne : lasting durations = []
  · exact ⟨_, _, ofDurations_of_lasting_eq_nil search hne⟩
  · obtain ⟨_, _, _, heq⟩ := exists_splits search hne
    exact ⟨_, _, heq⟩

/-- The units of durations of which one takes time are at least one each, and nothing but one
divides them all. The least split of the shortest duration by which all are nearly whole numbers of
parts is kept: the unit is a whole number of parts, and the error of a duration is in proportion to
it. If there is no such split, the error is half the shortest duration at most. -/
theorem ofDurations_near (search : UnitSearch Rat) (h : ∃ d ∈ durations, 1 / 1000000000 < d) :
    ∃ (minimum : Rat) (units : List Int) (unit : Rat),
      IsLeast {d | d ∈ lasting durations} minimum ∧
      ofDurations search durations = .ok (units, unit) ∧
      units.length = durations.length ∧ (∀ n ∈ units, 1 ≤ n) ∧
      (∀ d : Nat, (∀ n ∈ units, (d : Int) ∣ n) → d = 1) ∧
      ((∃ k, IsLeast (fitting search minimum (lasting durations) [1, 2, 3, 4, 6, 8]) k ∧
          IsWhole (minimum / k) unit ∧
          ErrorWithin (fun d => search.tolerance * d) unit durations units) ∨
        fitting search minimum (lasting durations) [1, 2, 3, 4, 6, 8] = ∅ ∧
          ErrorWithin (fun _ => minimum / 2) unit durations units) := by
  obtain ⟨first, hfirst, htime⟩ := h
  have hne : lasting durations ≠ [] := List.ne_nil_of_mem (mem_lasting.mpr ⟨hfirst, htime⟩)
  obtain ⟨minimum, k, hsplits, heq⟩ := exists_splits search hne
  set counts := durations.map (nearestCount (minimum / k)) with hcounts
  set divisor := commonDivisor counts with hdivisor
  have hcounted := counts_ofDurations heq
  refine ⟨minimum, _, _, hsplits.isLeast, heq, hcounted.length_eq, hcounted.one_le, ?_, ?_⟩
  · intro d hd
    have hone : (d : Int) ∣ 1 := by
      refine dvd_one_of_dvd_ediv hsplits.counts_ne_nil hsplits.counts_pos ?_
      exact List.forall_mem_map.mp hd
    exact Nat.dvd_one.mp (Int.natCast_dvd_natCast.mp hone)
  · rcases hsplits.split with hleast | ⟨hnone, rfl⟩
    · have hwhole : IsWhole (minimum / k) (minimum / k * divisor) := ⟨divisor, mul_comm _ _⟩
      refine .inl ⟨k, hleast, hwhole, hsplits.errorWithin fun d hd => ?_⟩
      exact (near_iff hsplits.part_pos).mp (hleast.1.2.2 d hd)
    · refine .inr ⟨hnone, hsplits.errorWithin fun d _ => ?_⟩
      rw [Int.cast_one, div_one, abs_sub_comm]
      exact abs_floor_mul_sub_le hsplits.minimum_pos d

/-- A search that accepts four percent of a duration. -/
def fourPercent : UnitSearch Rat where
  tolerance := 1 / 25

/-- A short duration, one of one and a half, one of none, and one of three that lasts too long. -/
def uneven : List Rat :=
  [100, 150, 0, 302]

/-- Half of the short duration is the unit. -/
theorem ofDurations_near_uneven :
    (∃ d ∈ uneven, 1 / 1000000000 < d) ∧
    (∃ (minimum : Rat) (units : List Int) (unit : Rat),
      IsLeast {d | d ∈ lasting uneven} minimum ∧
      ofDurations fourPercent uneven = .ok (units, unit) ∧
      units.length = uneven.length ∧ (∀ n ∈ units, 1 ≤ n) ∧
      (∀ d : Nat, (∀ n ∈ units, (d : Int) ∣ n) → d = 1) ∧
      ((∃ k, IsLeast (fitting fourPercent minimum (lasting uneven)
            [1, 2, 3, 4, 6, 8]) k ∧
          IsWhole (minimum / k) unit ∧
          ErrorWithin (fun d => fourPercent.tolerance * d) unit uneven units) ∨
        fitting fourPercent minimum (lasting uneven) [1, 2, 3, 4, 6, 8] = ∅ ∧
          ErrorWithin (fun _ => minimum / 2) unit uneven units)) ∧
    ofDurations fourPercent uneven = .ok ([2, 3, 1, 6], 50) := by
  have htime : ∃ d ∈ uneven, 1 / 1000000000 < d := ⟨100, by simp [uneven], by norm_num⟩
  refine ⟨htime, ofDurations_near fourPercent htime, ?_⟩
  cbv

end Units

namespace Slot

/-- A bar in which something takes time is measured the minimal way by a unit that is not longer
than anything that takes time. -/
lemma exists_quantize_minimal {m : Measure Rat} {s : Slot Rat} (hmode : m.mode = .minimal)
    (htime : ∃ f ∈ s.fragments, 1 / 1000000000 < f.duration) :
    ∃ (units : Fragment Rat → Int) (unit : Rat), 0 < unit ∧ (∀ f ∈ s.fragments, 1 ≤ units f) ∧
      (∀ f ∈ s.fragments, 1 / 1000000000 < f.duration → unit ≤ f.duration) ∧
      s.quantize m = .ok { s with
        fragments := s.fragments.map fun f => counted unit (units f) f
        unit
        target := ⌊m.length / unit + 1 / 2⌋ } := by
  obtain ⟨first, hfirst, hlong⟩ := htime
  have hne : Units.lasting (s.fragments.map (·.duration)) ≠ [] :=
    List.ne_nil_of_mem (Units.mem_lasting.mpr ⟨List.mem_map_of_mem hfirst, hlong⟩)
  obtain ⟨minimum, k, hsplits, heq⟩ := Units.exists_splits_counts m.search hne
  have hunits : (s.fragments.map (·.duration)).map (Units.nearestCount (minimum / k)) =
      s.fragments.map fun f => Units.nearestCount (minimum / k) f.duration := List.map_map
  have hpos := hsplits.counts_pos
  rw [hunits] at heq hpos
  refine ⟨_, minimum / k, hsplits.part_pos, List.forall_mem_map.mp hpos, fun f hf hlong => ?_, ?_⟩
  · exact hsplits.part_le (List.mem_map_of_mem hf) hlong
  · refine quantize_eq_counted hsplits.part_pos (List.ne_nil_of_mem hfirst) ?_
    have hpositive : ¬ minimum / k ≤ Scalar.zero := not_le.mpr hsplits.part_pos
    rw [findUnits, hmode]
    simp only [heq, bind, Except.bind, if_neg hpositive]
    rfl

/-- Bars of a second that are measured within four percent. -/
def briefBars : Measure Rat where
  length := 1000
  search := Units.fourPercent

end Slot

end PatternScore
