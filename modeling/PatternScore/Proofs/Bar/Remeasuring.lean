import PatternScore.Proofs.Bar.MinimalUnit

/-!
# Measuring units again

Units may be measured as durations once more. The error that is accepted is in proportion to a
duration, so a coarser split of the shortest duration that failed the durations may fit their units,
which are rounded; then the units are not given back. This happens exactly if fewer parts of the
least unit than it has units are enough for all of them (`Units.Coarsens`), and it does not happen
to durations that are not too different in length, since two splits of one unit are a twenty-fourth
of it apart wherever they differ (`Units.ofDurations_stable`). A note and one more than four times
as long show that it happens (`Units.not_forall_stable`).
-/

namespace PatternScore.Units

variable {search : UnitSearch Rat} {durations : List Rat} {units : List Int} {minimum : Rat}
  {j k n least : Int}

/-- Units that are given back when they are measured as durations. -/
def Stable {τ : Type} [Scalar τ] (search : UnitSearch τ) (units : List Int) : Prop :=
  ∃ unit, ofDurations search (units.map fun n : Int => Scalar.nearest (n : Rat)) = .ok (units, unit)

/-- Every one of some units is near a whole number of parts if the least of them is split into fewer
parts than it has units. -/
def Coarsens (tolerance : Rat) (units : List Int) (k : Int) : Prop :=
  ∃ least, IsLeast {n | n ∈ units} least ∧ k < least ∧
    ∀ n ∈ units, Near tolerance ((least : Rat) / k) n

/-! ## Units as durations -/

/-- Every unit takes time. -/
lemma lasting_map_cast (hpos : ∀ n ∈ units, 0 < n) :
    lasting (units.map fun n : Int => (n : Rat)) = units.map fun n : Int => (n : Rat) := by
  refine List.filter_eq_self.mpr (List.forall_mem_map.mpr fun n hn => decide_eq_true ?_)
  have hone : (1 : Rat) ≤ n := by exact_mod_cast hpos n hn
  exact lt_of_lt_of_le (by norm_num) hone

/-- The shortest of some units taken as durations is the least unit. -/
lemma isLeast_map_cast (h : IsLeast {n | n ∈ units} least) :
    IsLeast {d : Rat | d ∈ units.map fun n : Int => (n : Rat)} least := by
  refine ⟨List.mem_map_of_mem h.1, ?_⟩
  exact List.forall_mem_map.mpr fun n hn => Int.cast_le.mpr (h.2 hn)

/-- A whole number of units is its own count. -/
lemma nearestCount_one (hn : 0 < n) : nearestCount 1 (n : Rat) = n := by
  have hone : (1 : Rat) ≤ n := by exact_mod_cast hn
  have hlong : (1 : Rat) / 1000000000 < n := lt_of_lt_of_le (by norm_num) hone
  rw [nearestCount, if_pos hlong, div_one]
  exact Except.ok.inj (Scalar.roundHalfUp_intCast n)

/-- A longer duration has no fewer parts. -/
lemma nearestCount_mono {part d d' : Rat} (hpart : 0 < part) (hlong : 1 / 1000000000 < d)
    (hle : d ≤ d') : nearestCount part d ≤ nearestCount part d' := by
  have hparts : d / part ≤ d' / part := div_le_div_of_nonneg_right hle hpart.le
  rw [nearestCount, nearestCount, if_pos hlong, if_pos (hlong.trans_le hle)]
  exact Int.floor_le_floor (by linarith)

/-- What brings a duration near accepts an error. -/
lemma Near.tolerance_nonneg {tolerance step d : Rat} (h : Near tolerance step d) (hd : 0 < d) :
    0 ≤ tolerance := by
  obtain ⟨n, hn⟩ := h
  exact nonneg_of_mul_nonneg_left ((abs_nonneg _).trans hn) hd

/-- If the least unit is split into as many parts as it has units, all units are whole. -/
lemma least_mem_fitting (hpos : ∀ n ∈ units, 0 < n) (htolerance : 0 ≤ search.tolerance)
    (hsplit : least ∈ [1, 2, 3, 4, 6, 8]) (hlimit : least ≤ search.maxSubdivision) :
    least ∈ fitting search least (units.map fun n : Int => (n : Rat)) [1, 2, 3, 4, 6, 8] := by
  refine ⟨hsplit, hlimit, List.forall_mem_map.mpr fun n hn => ⟨n, ?_⟩⟩
  have hleastRat : (least : Rat) ≠ 0 := by exact_mod_cast (split_pos hsplit).ne'
  have hnRat : (0 : Rat) ≤ n := by exact_mod_cast (hpos n hn).le
  rw [div_self hleastRat, mul_one, sub_self, abs_zero]
  exact mul_nonneg htolerance hnRat

/-- Units are given back exactly if the least of them is split into as many parts as it has
units. -/
lemma stable_iff (hpos : ∀ n ∈ units, 0 < n) (hleast : IsLeast {n | n ∈ units} least) :
    Stable search units ↔ least = 1 ∨
      IsLeast (fitting search least (units.map fun n : Int => (n : Rat)) [1, 2, 3, 4, 6, 8])
        least := by
  have hlasting := lasting_map_cast hpos
  have hne : lasting (units.map fun n : Int => (n : Rat)) ≠ [] := by
    rw [hlasting]
    exact List.ne_nil_of_mem (isLeast_map_cast hleast).1
  obtain ⟨minimum, k, hsplits, heq⟩ := exists_splits_counts search hne
  have hminimum := hsplits.isLeast
  have hsplit := hsplits.split
  rw [hlasting] at hminimum hsplit
  obtain rfl : minimum = least := hminimum.unique (isLeast_map_cast hleast)
  constructor
  · rintro ⟨unit, hgiven⟩
    have hcounts := congrArg Prod.fst (Except.ok.inj (heq.symm.trans hgiven))
    simp only [List.map_map] at hcounts
    have hsame := List.map_inj_left.mp (hcounts.trans (List.map_id units).symm)
    obtain rfl : k = least := hsplits.nearestCount_minimum.symm.trans (by
      exact_mod_cast hsame least hleast.1)
    exact hsplit.symm.imp And.right id
  · intro h
    have hk : k = least := by
      rcases hsplit with hfits | ⟨hnone, rfl⟩
      · rcases h with rfl | h
        · have hnear := hfits.1.2.2 _ (isLeast_map_cast hleast).1
          have htolerance := hnear.tolerance_nonneg (by norm_num)
          have hone := Int.add_one_le_of_lt hsplits.pos
          have hmem := least_mem_fitting hpos htolerance (by decide) (hone.trans hfits.1.2.1)
          exact le_antisymm (hfits.2 hmem) hone
        · exact hfits.unique h
      · rcases h with rfl | h
        · rfl
        · rw [hnone] at h
          exact absurd h.1 (Set.notMem_empty _)
    subst hk
    have hkRat : (k : Rat) ≠ 0 := by exact_mod_cast hsplits.pos.ne'
    have hcounts : (units.map fun n : Int => (n : Rat)).map (nearestCount 1) = units := by
      rw [List.map_map]
      exact (List.map_congr_left fun n hn => nearestCount_one (hpos n hn)).trans (List.map_id _)
    rw [div_self hkRat, hcounts] at heq
    exact ⟨1, heq⟩

/-- Single units are given back. -/
lemma stable_of_ones (hones : ∀ n ∈ units, n = 1) : Stable search units := by
  cases units with
  | nil => exact ⟨0, rfl⟩
  | cons first rest =>
    have hpos : ∀ n ∈ first :: rest, 0 < n := fun n hn => by rw [hones n hn]; exact one_pos
    have hleast : IsLeast {n | n ∈ first :: rest} 1 :=
      ⟨hones first List.mem_cons_self ▸ List.mem_cons_self, fun n hn => (hones n hn).ge⟩
    exact (stable_iff hpos hleast).mpr (.inl rfl)

/-! ## Units of durations -/

/-- Units that are not given back have a least one that is more than one. -/
lemma not_coarsens_of_one_mem {tolerance : Rat} (hone : 1 ∈ units)
    (hk : k ∈ [1, 2, 3, 4, 6, 8]) : ¬ Coarsens tolerance units k := by
  rintro ⟨least, hleast, hlt, -⟩
  have hle : least ≤ 1 := hleast.2 hone
  have hpos := split_pos hk
  omega

namespace Splits

variable (h : Splits search durations minimum k)

include h

/-- If no duration has a single part, the least count is that of the shortest duration, which is
split. -/
lemma isLeast_counts (hone : 1 ∉ durations.map (nearestCount (minimum / k))) :
    IsLeast {n | n ∈ durations.map (nearestCount (minimum / k))} k ∧
      IsLeast (fitting search minimum (lasting durations) [1, 2, 3, 4, 6, 8]) k := by
  have hshortest := List.mem_map_of_mem (f := nearestCount (minimum / k))
    (mem_lasting.mp h.isLeast.1).1
  rw [h.nearestCount_minimum] at hshortest
  refine ⟨⟨hshortest, List.forall_mem_map.mpr fun d hd => ?_⟩, ?_⟩
  · by_cases hlong : 1 / 1000000000 < d
    · have hminimum := h.isLeast.2 (mem_lasting.mpr ⟨hd, hlong⟩)
      calc k = nearestCount (minimum / k) minimum := h.nearestCount_minimum.symm
        _ ≤ nearestCount (minimum / k) d :=
          nearestCount_mono h.part_pos (mem_lasting.mp h.isLeast.1).2 hminimum
    · have hsingle : nearestCount (minimum / k) d = 1 := if_neg hlong
      exact absurd (hsingle ▸ List.mem_map_of_mem hd) hone
  · rcases h.split with hfits | ⟨-, rfl⟩
    · exact hfits
    · exact absurd hshortest hone

/-- The units of durations are given back unless a coarser split fits them. -/
lemma stable_iff :
    Stable search (durations.map (nearestCount (minimum / k))) ↔ ∀ j ∈ [1, 2, 3, 4, 6, 8],
      ¬ Coarsens search.tolerance (durations.map (nearestCount (minimum / k))) j := by
  by_cases hone : 1 ∈ durations.map (nearestCount (minimum / k))
  · have hleast : IsLeast {n | n ∈ durations.map (nearestCount (minimum / k))} 1 :=
      ⟨hone, fun n hn => h.counts_pos n hn⟩
    rw [Units.stable_iff h.counts_pos hleast]
    exact ⟨fun _ j hj => not_coarsens_of_one_mem hone hj, fun _ => .inl rfl⟩
  · obtain ⟨hleast, hfits⟩ := h.isLeast_counts hone
    obtain ⟨hk, hlimit, hnear⟩ := hfits.1
    have htolerance := (hnear minimum h.isLeast.1).tolerance_nonneg h.minimum_pos
    have hmem := least_mem_fitting h.counts_pos htolerance hk hlimit
    rw [Units.stable_iff h.counts_pos hleast]
    constructor
    · rintro hstable j hj ⟨least, hleast', hlt, hcoarse⟩
      obtain rfl := hleast'.unique hleast
      rcases hstable with rfl | hstable
      · exact hone hleast.1
      · have hjmem := hstable.2 ⟨hj, hlt.le.trans hlimit, List.forall_mem_map.mpr hcoarse⟩
        exact absurd hlt (not_lt.mpr hjmem)
    · intro hnone
      refine .inr ⟨hmem, fun j hj => not_lt.mp fun hlt => ?_⟩
      exact hnone j hj.1 ⟨k, hleast, hlt, List.forall_mem_map.mp hj.2.2⟩

end Splits

/-- A number of parts of a unit that is split in one way differs from one that is split in another
way by a twenty-fourth of the unit, if at all. -/
lemma le_abs_sub_of_ne {t : Int} (hk : k ∈ [1, 2, 3, 4, 6, 8]) (hj : j ∈ [1, 2, 3, 4, 6, 8])
    (hlt : j < k) (hne : j * n ≠ t * k) : k * j ≤ 24 * |j * n - t * k| := by
  have hgcd : ∀ k ∈ [(1 : Int), 2, 3, 4, 6, 8], ∀ j ∈ [(1 : Int), 2, 3, 4, 6, 8], j < k →
      k * j ≤ 24 * (Int.gcd j k : Int) := by decide
  have hdvd : (Int.gcd j k : Int) ∣ j * n - t * k :=
    dvd_sub ((Int.gcd_dvd_left j k).mul_right n) ((Int.gcd_dvd_right j k).mul_left t)
  have hle : (Int.gcd j k : Int) ≤ |j * n - t * k| :=
    Int.le_of_dvd (abs_pos.mpr (sub_ne_zero.mpr hne)) ((dvd_abs _ _).mpr hdvd)
  linarith [hgcd k hk j hj hlt]

/-- If a coarser split fits units that it does not measure exactly, one of them is long. -/
lemma le_of_near {tolerance : Rat} {t : Int} (hk : k ∈ [1, 2, 3, 4, 6, 8])
    (hj : j ∈ [1, 2, 3, 4, 6, 8]) (hlt : j < k) (hnear : |(n : Rat) - t * (k / j)| ≤ tolerance * n)
    (hne : j * n ≠ t * k) : (k : Rat) ≤ 24 * tolerance * n := by
  have hjRat : (0 : Rat) < j := by exact_mod_cast split_pos hj
  have hapart : ((k * j : Int) : Rat) ≤ (24 * |j * n - t * k| : Int) :=
    Int.cast_le.mpr (le_abs_sub_of_ne hk hj hlt hne)
  have herror : ((|j * n - t * k| : Int) : Rat) = |(n : Rat) - t * (k / j)| * j := by
    rw [← abs_of_pos hjRat, ← abs_mul, abs_of_pos hjRat]
    push_cast
    congr 1
    field_simp
  push_cast at hapart herror
  rw [herror] at hapart
  have hscaled : (k : Rat) * j ≤ 24 * tolerance * n * j := by
    calc (k : Rat) * j ≤ 24 * (|(n : Rat) - t * (k / j)| * j) := hapart
      _ ≤ 24 * (tolerance * n * j) := by gcongr
      _ = 24 * tolerance * n * j := by ring
  exact le_of_mul_le_mul_right hscaled hjRat

namespace Splits

variable (h : Splits search durations minimum k)

include h

/-- The units of durations of which none is much longer than another are given back. -/
lemma stable_of_short (hshort : ∀ d ∈ lasting durations,
      24 * search.tolerance * (1 + search.tolerance) * d < minimum) :
    Stable search (durations.map (nearestCount (minimum / k))) := by
  refine h.stable_iff.mpr fun j hj hcoarse => ?_
  have hone : 1 ∉ durations.map (nearestCount (minimum / k)) :=
    fun hone => not_coarsens_of_one_mem hone hj hcoarse
  obtain ⟨hleast, hfits⟩ := h.isLeast_counts hone
  obtain ⟨hk, hlimit, hnear⟩ := hfits.1
  obtain ⟨least, hleast', hlt, hcoarse⟩ := hcoarse
  obtain rfl := hleast'.unique hleast
  have hkRat : (0 : Rat) < least := by exact_mod_cast h.pos
  have htolerance := (hnear minimum h.isLeast.1).tolerance_nonneg h.minimum_pos
  -- The coarser split is exact for the units, so it fits the durations as well as the one found.
  have hcoarser : ∀ d ∈ lasting durations, Near search.tolerance (minimum / j) d := by
    intro d hd
    obtain ⟨hmem, hlong⟩ := mem_lasting.mp hd
    have herror := (near_iff h.part_pos).mp (hnear d hd)
    obtain ⟨t, ht⟩ := hcoarse _ (List.mem_map_of_mem hmem)
    have hcount : ⌊d / (minimum / least) + 1 / 2⌋ = nearestCount (minimum / least) d :=
      (if_pos hlong).symm
    rw [hcount] at herror
    set n := nearestCount (minimum / least) d
    have hexact : j * n = t * least := by
      by_contra hne
      have hparts : n * (minimum / least) ≤ (1 + search.tolerance) * d := by
        linarith [(abs_le.mp herror).1]
      have hlong : minimum ≤ 24 * search.tolerance * (1 + search.tolerance) * d := by
        calc minimum = least * (minimum / least) := by field_simp
          _ ≤ 24 * search.tolerance * n * (minimum / least) :=
            mul_le_mul_of_nonneg_right (le_of_near hk hj hlt ht hne) h.part_pos.le
          _ = 24 * search.tolerance * (n * (minimum / least)) := by ring
          _ ≤ 24 * search.tolerance * ((1 + search.tolerance) * d) := by gcongr
          _ = 24 * search.tolerance * (1 + search.tolerance) * d := by ring
      exact absurd (hshort d hd) (not_lt.mpr hlong)
    have hexactRat : (j : Rat) * n = t * least := by exact_mod_cast hexact
    have hjRat : (j : Rat) ≠ 0 := by exact_mod_cast (split_pos hj).ne'
    have hparts : (t : Rat) * (minimum / j) = n * (minimum / least) := by
      field_simp
      linear_combination -minimum * hexactRat
    refine ⟨t, ?_⟩
    rwa [hparts]
  exact absurd hlt (not_lt.mpr (hfits.2 ⟨hj, hlt.le.trans hlimit, hcoarser⟩))

end Splits

/-- Durations have units, and these are given back when they are measured once more, unless fewer
parts of the least of them than it has units are enough for all. They are given back if no duration
is much longer than another, which for an error of one percent means more than four times as
long. -/
theorem ofDurations_stable (search : UnitSearch Rat) (durations : List Rat) :
    ∃ units unit, ofDurations search durations = .ok (units, unit) ∧
      (Stable search units ↔
        ∀ k ∈ [1, 2, 3, 4, 6, 8], ¬ Coarsens search.tolerance units k) ∧
      ((∀ d ∈ lasting durations, ∀ d' ∈ lasting durations,
        24 * search.tolerance * (1 + search.tolerance) * d < d') → Stable search units) := by
  by_cases hne : lasting durations = []
  · have hones : ∀ n ∈ durations.map fun _ => (1 : Int), n = 1 :=
      List.forall_mem_map.mpr fun _ _ => rfl
    refine ⟨durations.map fun _ => 1, 0, ofDurations_of_lasting_eq_nil search hne, ?_,
      fun _ => stable_of_ones hones⟩
    refine iff_of_true (stable_of_ones hones) fun k hk hcoarse => ?_
    obtain ⟨least, hleast, -⟩ := id hcoarse
    exact not_coarsens_of_one_mem (hones least hleast.1 ▸ hleast.1) hk hcoarse
  · obtain ⟨minimum, k, hsplits, heq⟩ := exists_splits_counts search hne
    refine ⟨_, _, heq, hsplits.stable_iff, fun hshort => ?_⟩
    exact hsplits.stable_of_short fun d hd => hshort d hd minimum hsplits.isLeast.1

/-- A search that accepts one percent of a duration. -/
def onePercent {τ : Type} [Scalar τ] : UnitSearch τ where
  tolerance := Scalar.nearest (1 / 100)

/-- A note, a dotted one, and two of four times its length, of which one lasts too long. -/
def held : List Rat :=
  [100, 150, 400, 404]

/-- Half of the note is the unit, once and again. -/
theorem ofDurations_stable_held :
    (∀ d ∈ lasting held, ∀ d' ∈ lasting held,
      24 * onePercent.tolerance * (1 + onePercent.tolerance) * d < d') ∧
    ofDurations onePercent held = .ok ([2, 3, 8, 8], 50) ∧
      Stable (onePercent : UnitSearch Rat) [2, 3, 8, 8] := by
  have hshort : ∀ d ∈ lasting held, ∀ d' ∈ lasting held,
      24 * onePercent.tolerance * (1 + onePercent.tolerance) * d < d' := by
    have hlasting : lasting held = held := by cbv
    have htolerance : (onePercent : UnitSearch Rat).tolerance = 1 / 100 := rfl
    rw [hlasting, htolerance]
    simp only [held, List.forall_mem_cons, List.not_mem_nil, false_implies, implies_true, and_true]
    norm_num
  have hmeasured : ofDurations onePercent held = .ok ([2, 3, 8, 8], 50) := by cbv
  obtain ⟨units, unit, heq, -, hstable⟩ := ofDurations_stable onePercent held
  obtain ⟨rfl, rfl⟩ := Prod.mk.inj (Except.ok.inj (heq.symm.trans hmeasured))
  exact ⟨hshort, hmeasured, hstable hshort⟩

/-- A note and one of more than four times its length are measured in eighths of the note, their
units in thirds of the least one. It is so in exact numbers and in those that are rounded. -/
theorem not_forall_stable :
    (¬ ∀ durations : List Rat, (∀ d ∈ durations, 0 < d) → ∀ units unit,
      ofDurations onePercent durations = .ok (units, unit) →
        Stable (onePercent : UnitSearch Rat) units) ∧
    ¬ ∀ durations : List Float, (∀ d ∈ durations, 0 < d) → ∀ units unit,
      ofDurations onePercent durations = .ok (units, unit) →
        Stable (onePercent : UnitSearch Float) units := by
  constructor
  · intro hall
    have hfirst : ofDurations onePercent [100, (438 : Rat)] = .ok ([8, 35], 25 / 2) := by cbv
    obtain ⟨unit, hagain⟩ := hall [100, 438] (by decide) _ _ hfirst
    have hcoarser : ofDurations onePercent [8, (35 : Rat)] = .ok ([3, 13], 8 / 3) := by cbv
    cases hagain.symm.trans hcoarser
  · intro hall
    have hfirst : ofDurations onePercent [100, (438 : Float)] = .ok ([8, 35], 12.5) := by
      decide +kernel
    obtain ⟨unit, hagain⟩ := hall [100, 438] (by decide +kernel) _ _ hfirst
    have hcoarser : ofDurations onePercent
        ([(8 : Int), 35].map fun n : Int => (Scalar.nearest (n : Rat) : Float)) =
          .ok ([3, 13], Scalar.quotient 8 3) := by
      decide +kernel
    cases hagain.symm.trans hcoarser

end PatternScore.Units
