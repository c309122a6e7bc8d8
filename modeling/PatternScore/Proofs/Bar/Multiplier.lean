import PatternScore.Bar.Units
import PatternScore.Proofs.Number.Exact
import PatternScore.Proofs.Sequence

/-!
# The multiplier that makes numbers whole

The search for a multiplier accepts what is nearly whole. A number that is not whole is further from
the integers than one part in its denominator, and so is every multiple of it that is not whole. So
with a small tolerance nothing is accepted by accident (`all_nearlyWhole_iff`), and the search finds
the least common denominator of its numbers (`fixedMultiplier_eq_lcm`).
-/

namespace PatternScore.Units

/-! ## Nearly whole numbers -/

/-- The number is nearly whole after multiplication. -/
def nearlyWhole (tolerance : Rat) (multiplier : Int) (x : Rat) : Bool :=
  decide (|x * multiplier - ⌊x * multiplier + 1 / 2⌋| ≤ tolerance)

/-- In exact arithmetic the comparison never fails, and it says whether a multiple is nearly
whole. -/
lemma isNearlyWhole_eq (tolerance : Rat) (multiplier : Int) (x : Rat) :
    isNearlyWhole tolerance multiplier x = .ok (nearlyWhole tolerance multiplier x) := by
  have hstep : isNearlyWhole tolerance multiplier x =
      .ok (decide (Scalar.abs (x * multiplier - (⌊x * multiplier + 1 / 2⌋ : Rat)) ≤ tolerance)) :=
    rfl
  rw [hstep, Scalar.rat_abs]
  rfl

/-- Whole numbers are nearly whole. -/
lemma nearlyWhole_of_isWhole {tolerance : Rat} (htolerance : 0 ≤ tolerance) {multiplier : Int}
    {x : Rat} {n : Int} (h : x * multiplier = n) : nearlyWhole tolerance multiplier x = true := by
  have hhalf : ⌊(1 / 2 : Rat)⌋ = 0 := by norm_num
  rw [nearlyWhole, h, Int.floor_intCast_add, hhalf, add_zero, sub_self, abs_zero]
  exact decide_eq_true htolerance

/-- A number with a small denominator that is nearly whole is whole. -/
lemma exists_int_of_nearlyWhole {tolerance : Rat} {parts : Nat} (hparts : 0 < parts)
    (htolerance : tolerance * parts < 1) {multiplier : Int} {x : Rat} {a : Int}
    (hx : x * parts = a) (h : nearlyWhole tolerance multiplier x = true) :
    ∃ n : Int, x * multiplier = n := by
  have hle : |x * multiplier - ⌊x * multiplier + 1 / 2⌋| ≤ tolerance := of_decide_eq_true h
  have hpartsRat : (0 : Rat) < parts := by exact_mod_cast hparts
  have hcast : ((a * multiplier - ⌊x * multiplier + 1 / 2⌋ * parts : Int) : Rat) =
      (x * multiplier - ⌊x * multiplier + 1 / 2⌋) * parts := by
    push_cast
    rw [← hx]
    ring
  have hsmall : |((a * multiplier - ⌊x * multiplier + 1 / 2⌋ * parts : Int) : Rat)| < 1 := by
    rw [hcast, abs_mul, abs_of_pos hpartsRat]
    calc |x * multiplier - ⌊x * multiplier + 1 / 2⌋| * parts ≤ tolerance * parts := by gcongr
      _ < 1 := htolerance
  have hzero : a * multiplier - ⌊x * multiplier + 1 / 2⌋ * parts = 0 := by
    rw [← Int.abs_lt_one_iff]
    exact_mod_cast hsmall
  rw [hzero, Int.cast_zero] at hcast
  refine ⟨⌊x * multiplier + 1 / 2⌋, ?_⟩
  have := (mul_eq_zero.mp hcast.symm).resolve_right hpartsRat.ne'
  linarith

/-! ## The search -/

/-- The search takes the first candidate that makes all numbers nearly whole. -/
lemma multiplierFrom_eq (tolerance : Rat) (values : List Rat) (tries : Nat) (multiplier : Int) :
    multiplierFrom tolerance values tries multiplier =
      .ok (((List.range tries).map fun i : Nat => multiplier + (i : Int)).find? fun k =>
        values.all (nearlyWhole tolerance k)) := by
  induction tries generalizing multiplier with
  | zero => rfl
  | succ tries ih =>
    have hshift : (fun i : Nat => multiplier + (i : Int)) ∘ Nat.succ =
        fun i : Nat => multiplier + 1 + (i : Int) := by
      funext i
      simp only [Function.comp_apply, Nat.succ_eq_add_one]
      push_cast
      ring
    rw [multiplierFrom, allM_eq_ok (isNearlyWhole_eq tolerance multiplier), List.range_succ_eq_map,
      List.map_cons, List.map_map, hshift, List.find?_cons]
    simp only [Nat.cast_zero, add_zero]
    cases values.all (nearlyWhole tolerance multiplier) with
    | true => rfl
    | false => exact ih (multiplier + 1)

variable {search : UnitSearch Rat} {values : List Rat} {tolerance : Rat} {m : Nat}

/-- The least multiplier that makes all numbers nearly whole is found, if it is allowed. -/
lemma fixedMultiplier_of_isLeast (hmost : (m : Int) ≤ search.maxMultiplier)
    (h : IsLeast {k : Nat | 0 < k ∧ values.all (nearlyWhole search.tolerance k) = true} m) :
    fixedMultiplier search values = .ok m := by
  obtain ⟨⟨hpos, hfits⟩, hleast⟩ := h
  have hcast : (1 : Int) + (m - 1 : Nat) = m := by omega
  have hfind : ((List.range search.maxMultiplier.toNat).find? ((fun k : Int =>
      values.all (nearlyWhole search.tolerance k)) ∘ fun i : Nat => 1 + (i : Int))) =
        some (m - 1) := by
    rw [List.find?_range_eq_some]
    refine ⟨?_, List.mem_range.mpr (by omega), fun i hi => ?_⟩
    · rw [Function.comp_apply, hcast]
      exact hfits
    · rw [Bool.not_eq_true', Function.comp_apply, ← Bool.not_eq_true]
      intro hsmaller
      have hle : m ≤ 1 + i := hleast ⟨by omega, by exact_mod_cast hsmaller⟩
      omega
  rw [fixedMultiplier, multiplierFrom_eq, List.find?_map, hfind, ← hcast]
  rfl

/-! ## The least common denominator -/

/-- The least common denominator of some numbers. -/
def commonDenominator (values : List Rat) : Nat :=
  values.foldr (fun x d => Nat.lcm x.den d) 1

/-- What the least common denominator divides is what every denominator divides. -/
lemma commonDenominator_dvd_iff : commonDenominator values ∣ m ↔ ∀ x ∈ values, x.den ∣ m := by
  induction values with
  | nil => simp [commonDenominator]
  | cons x rest ih =>
    rw [List.forall_mem_cons, ← ih]
    exact Nat.lcm_dvd_iff

/-- No denominator is zero, and so the least common one is not. -/
lemma commonDenominator_pos (values : List Rat) : 0 < commonDenominator values := by
  induction values with
  | nil => exact Nat.one_pos
  | cons x rest ih => exact Nat.lcm_pos x.den_pos ih

/-- A multiplier makes a number whole exactly if the denominator of the number divides it. -/
lemma exists_int_iff_den_dvd {x : Rat} (hm : 0 < m) : (∃ n : Int, x * m = n) ↔ x.den ∣ m := by
  have hmRat : (m : Rat) ≠ 0 := by exact_mod_cast hm.ne'
  constructor
  · rintro ⟨n, hn⟩
    have hx : x = (n : Rat) / (m : Int) := by
      rw [Int.cast_natCast, eq_div_iff hmRat, hn]
    have hdvd := Rat.den_dvd n m
    rw [Rat.divInt_eq_div, ← hx] at hdvd
    exact_mod_cast hdvd
  · rintro ⟨k, rfl⟩
    refine ⟨x.num * k, ?_⟩
    push_cast
    rw [← mul_assoc, Rat.mul_den_eq_num]

/-- A multiplier makes all numbers whole exactly if their common denominator divides it. -/
lemma forall_exists_int_iff (hm : 0 < m) :
    (∀ x ∈ values, ∃ n : Int, x * m = n) ↔ commonDenominator values ∣ m := by
  rw [commonDenominator_dvd_iff]
  exact forall₂_congr fun _ _ => exists_int_iff_den_dvd hm

/-- The common denominator is the least multiplier that makes all numbers whole. -/
lemma isLeast_commonDenominator (values : List Rat) :
    IsLeast {k : Nat | 0 < k ∧ ∀ x ∈ values, ∃ n : Int, x * k = n} (commonDenominator values) := by
  have hpos := commonDenominator_pos values
  refine ⟨⟨hpos, (forall_exists_int_iff hpos).mpr dvd_rfl⟩, ?_⟩
  rintro k ⟨hk, hwhole⟩
  exact Nat.le_of_dvd hk ((forall_exists_int_iff hk).mp hwhole)

/-- What a small tolerance accepts is whole. -/
lemma all_nearlyWhole_iff (htolerance : 0 ≤ tolerance)
    (hsmall : tolerance * commonDenominator values < 1) :
    values.all (nearlyWhole tolerance m) = true ↔ ∀ x ∈ values, ∃ n : Int, x * m = n := by
  have hpos := commonDenominator_pos values
  rw [List.all_eq_true]
  refine forall₂_congr fun x hx => ⟨fun hnear => ?_, ?_⟩
  · obtain ⟨a, ha⟩ := (forall_exists_int_iff hpos).mpr dvd_rfl x hx
    exact_mod_cast exists_int_of_nearlyWhole hpos hsmall ha hnear
  · rintro ⟨n, hn⟩
    exact nearlyWhole_of_isWhole htolerance (by exact_mod_cast hn)

/-- The search finds the common denominator, if it is allowed and the tolerance is small. -/
lemma fixedMultiplier_eq (hmost : (commonDenominator values : Int) ≤ search.maxMultiplier)
    (htolerance : 0 ≤ search.tolerance) (hsmall : search.tolerance * search.maxMultiplier < 1) :
    fixedMultiplier search values = .ok (commonDenominator values : Int) := by
  have hsmaller : search.tolerance * commonDenominator values < 1 := by
    have hle : (commonDenominator values : Rat) ≤ search.maxMultiplier := by exact_mod_cast hmost
    calc search.tolerance * commonDenominator values
        ≤ search.tolerance * search.maxMultiplier := by gcongr
      _ < 1 := hsmall
  have hleast := isLeast_commonDenominator values
  simp only [← all_nearlyWhole_iff htolerance hsmaller] at hleast
  exact fixedMultiplier_of_isLeast hmost hleast

/-- If the common denominator of some numbers is allowed as a multiplier, and the tolerance is
smaller than one part in the greatest multiplier, the search returns the common denominator: every
number times it is whole, and no smaller multiplier would do. -/
theorem fixedMultiplier_eq_lcm (htolerance : 0 ≤ search.tolerance)
    (hsmall : search.tolerance * search.maxMultiplier < 1)
    (hmost : (commonDenominator values : Int) ≤ search.maxMultiplier) :
    fixedMultiplier search values = .ok (commonDenominator values : Int) ∧
      IsLeast {k : Nat | 0 < k ∧ ∀ x ∈ values, ∃ n : Int, x * k = n}
        (commonDenominator values) :=
  ⟨fixedMultiplier_eq hmost htolerance hsmall, isLeast_commonDenominator values⟩

/-- Halves, thirds and quarters, one of them negative, need twelve parts. -/
theorem fixedMultiplier_eq_lcm_mixed :
    let search : UnitSearch Rat := { tolerance := 1 / 100 }
    let values : List Rat := [1 / 2, -5 / 3, 7 / 4, 2]
    0 ≤ search.tolerance ∧ search.tolerance * search.maxMultiplier < 1 ∧
      fixedMultiplier search values = .ok 12 ∧
      IsLeast {k : Nat | 0 < k ∧ ∀ x ∈ values, ∃ n : Int, x * k = n} 12 := by
  intro search values
  have hdenominator : commonDenominator values = 12 := by decide +kernel
  have htolerance : 0 ≤ search.tolerance := by norm_num [search]
  have hsmall : search.tolerance * search.maxMultiplier < 1 := by norm_num [search]
  have hfound := @fixedMultiplier_eq_lcm search values htolerance hsmall
    (by rw [hdenominator]; decide)
  rw [hdenominator] at hfound
  exact ⟨htolerance, hsmall, hfound⟩

end PatternScore.Units
