import PatternScore.Proofs.Bar.Multiplier

/-!
# Counting in beats without loss

Numbers of beats that are whole multiples of one part of a beat become whole after multiplication by
some allowed multiplier, and the search finds one (`exists_fixedMultiplier`). The unit that comes
out measures every duration exactly. It also measures an offset if the offset is a sum of durations,
which is what `Slot.exists_quantize` asks for; where fragments overlap, an offset need not be one.
-/

namespace PatternScore

namespace Units

/-! ## Common divisors -/

/-- Several integers are divided by what divides the first of them and the others. -/
lemma foldl_gcd_dvd (rest : List Int) (n : Int) :
    let divisor := rest.foldl (fun d m => (Int.gcd d m : Int)) n
    divisor ∣ n ∧ ∀ m ∈ rest, divisor ∣ m := by
  induction rest generalizing n with
  | nil => exact ⟨dvd_rfl, fun _ h => absurd h List.not_mem_nil⟩
  | cons m rest ih =>
    obtain ⟨hdvd, hrest⟩ := ih (Int.gcd n m)
    refine ⟨hdvd.trans (Int.gcd_dvd_left n m), List.forall_mem_cons.mpr ⟨?_, hrest⟩⟩
    exact hdvd.trans (Int.gcd_dvd_right n m)

/-- The common divisor divides. -/
lemma commonDivisor_dvd {units : List Int} {n : Int} (h : n ∈ units) : commonDivisor units ∣ n := by
  cases units with
  | nil => cases h
  | cons m rest =>
    obtain ⟨hfirst, hrest⟩ := foldl_gcd_dvd rest m
    exact List.forall_mem_cons (p := (commonDivisor (m :: rest) ∣ ·)) |>.mpr ⟨hfirst, hrest⟩ n h

/-- The common divisor of positive integers is positive. -/
lemma commonDivisor_pos {units : List Int} (hne : units ≠ []) (h : ∀ n ∈ units, 0 < n) :
    0 < commonDivisor units := by
  obtain ⟨n, rest, rfl⟩ := List.exists_cons_of_ne_nil hne
  have hpositive : ∀ (rest : List Int) (n : Int), 0 < n →
      0 < rest.foldl (fun d m => (Int.gcd d m : Int)) n := by
    intro rest
    induction rest with
    | nil => exact fun _ hn => hn
    | cons m rest ih =>
      intro n hn
      have hgcd : 0 < Int.gcd n m := Int.gcd_pos_of_ne_zero_left m hn.ne'
      exact ih _ (Int.natCast_pos.mpr hgcd)
  exact hpositive rest n (h n List.mem_cons_self)

/-- Units are divided by their common divisor, also where nothing is to be done. -/
lemma reduce_eq_map {units : List Int} (h : 0 < commonDivisor units) :
    reduce units = units.map (· / commonDivisor units) := by
  rw [reduce]
  split
  · have hone : commonDivisor units = 1 := by omega
    simp [hone]
  · rfl

/-! ## Whole numbers of units -/

/-- A length is a whole number of units. -/
def IsWhole (unit x : Rat) : Prop :=
  ∃ n : Int, x = n * unit

/-- How many whole units a length has. -/
def count (unit x : Rat) : Int :=
  ⌊x / unit⌋

/-- A whole number of units is counted exactly. -/
lemma count_eq {unit : Rat} (hunit : 0 < unit) (n : Int) : count unit (n * unit) = n := by
  rw [count, mul_div_cancel_right₀ _ hunit.ne', Int.floor_intCast]

/-- A time is a whole number of units if and only if it is what its count makes. -/
lemma isWhole_iff (unit x : Rat) : IsWhole unit x ↔ count unit x * unit = x := by
  constructor
  · rintro ⟨n, rfl⟩
    by_cases hunit : unit = 0
    · simp [hunit]
    · rw [count, mul_div_cancel_right₀ _ hunit, Int.floor_intCast]
  · intro h
    exact ⟨_, h.symm⟩

/-- It can be decided by counting. -/
instance (unit x : Rat) : Decidable (IsWhole unit x) :=
  decidable_of_iff _ (isWhole_iff unit x).symm

/-- The count of a whole number of units makes up the time again. -/
lemma IsWhole.count_mul {unit x : Rat} (h : IsWhole unit x) : count unit x * unit = x :=
  (isWhole_iff unit x).mp h

/-- A whole number of units that takes time has at least one. -/
lemma IsWhole.count_pos {unit x : Rat} (hunit : 0 < unit) (h : IsWhole unit x) (hx : 0 < x) :
    0 < count unit x := by
  have hproduct : 0 < (count unit x : Rat) * unit := by
    rw [h.count_mul]
    exact hx
  exact_mod_cast pos_of_mul_pos_left hproduct hunit.le

/-- Rounding the quotient gives the count, with nothing to round. -/
lemma IsWhole.roundHalfUp {unit x : Rat} (hunit : 0 < unit) (h : IsWhole unit x) :
    Scalar.roundHalfUp (x / unit) = .ok (count unit x) := by
  obtain ⟨n, rfl⟩ := h
  rw [count_eq hunit, mul_div_cancel_right₀ _ hunit.ne', Scalar.roundHalfUp_intCast]

/-- The sum of whole numbers of units is one. -/
lemma IsWhole.add {unit x y : Rat} (hx : IsWhole unit x) (hy : IsWhole unit y) :
    IsWhole unit (x + y) := by
  obtain ⟨m, rfl⟩ := hx
  obtain ⟨n, rfl⟩ := hy
  exact ⟨m + n, by push_cast; ring⟩

/-- Their difference is one. -/
lemma IsWhole.sub {unit x y : Rat} (hx : IsWhole unit x) (hy : IsWhole unit y) :
    IsWhole unit (x - y) := by
  obtain ⟨m, rfl⟩ := hx
  obtain ⟨n, rfl⟩ := hy
  exact ⟨m - n, by push_cast; ring⟩

/-- No time at all is a whole number of units. -/
lemma isWhole_zero (unit : Rat) : IsWhole unit 0 := ⟨0, by simp⟩

/-- A multiple of a whole number of units is one. -/
lemma IsWhole.mul_int {unit x : Rat} (h : IsWhole unit x) (k : Int) : IsWhole unit (x * k) := by
  obtain ⟨n, rfl⟩ := h
  exact ⟨n * k, by push_cast; ring⟩

/-- What measures several multiples of a part measures the multiple by their common divisor, which
is a sum of multiples of them. -/
lemma isWhole_mul_commonDivisor {step part : Rat} {counts : List Int}
    (h : ∀ n ∈ counts, IsWhole step (part * n)) : IsWhole step (part * commonDivisor counts) := by
  cases counts with
  | nil =>
    show IsWhole step (part * (0 : Int))
    rw [Int.cast_zero, mul_zero]
    exact isWhole_zero step
  | cons n rest =>
    obtain ⟨hn, hrest⟩ := List.forall_mem_cons.mp h
    show IsWhole step (part * (rest.foldl (fun d m => (Int.gcd d m : Int)) n : Int))
    clear h
    induction rest generalizing n with
    | nil => exact hn
    | cons m rest ih =>
      obtain ⟨hm, hrest⟩ := List.forall_mem_cons.mp hrest
      apply ih _ ?_ hrest
      have hbezout : part * (Int.gcd n m : Int) =
          part * n * Int.gcdA n m + part * m * Int.gcdB n m := by
        rw [Int.gcd_eq_gcd_ab]
        push_cast
        ring
      rw [hbezout]
      exact (hn.mul_int _).add (hm.mul_int _)

/-! ## The multiplier -/

/-- Numbers with one small denominator get an allowed multiplier that makes them whole. -/
lemma exists_fixedMultiplier {search : UnitSearch Rat} {values : List Rat} {parts : Nat}
    (hparts : 0 < parts) (hmost : (parts : Int) ≤ search.maxMultiplier)
    (htolerance : 0 ≤ search.tolerance) (hsmall : search.tolerance * search.maxMultiplier < 1)
    (h : ∀ x ∈ values, ∃ a : Int, x * parts = a) :
    ∃ multiplier : Int, 0 < multiplier ∧ fixedMultiplier search values = .ok multiplier ∧
      ∀ x ∈ values, ∃ n : Int, x * multiplier = n := by
  obtain ⟨⟨hpos, hwhole⟩, hleast⟩ := isLeast_commonDenominator values
  have hle : commonDenominator values ≤ parts := hleast ⟨hparts, h⟩
  refine ⟨commonDenominator values, by exact_mod_cast hpos,
    fixedMultiplier_eq (by omega) htolerance hsmall, ?_⟩
  exact_mod_cast hwhole

/-! ## Durations in beats -/

/-- A whole positive number of beats has as many units. -/
lemma countOfBeats_eq {multiplier : Int} {beats : Rat} {n : Int} (h : beats * multiplier = n)
    (hn : 0 < n) : countOfBeats multiplier beats = .ok n := by
  have hround : Scalar.roundHalfUp (beats * Scalar.nearest (multiplier : Rat)) = .ok n := by
    rw [Scalar.rat_nearest, h, Scalar.roundHalfUp_intCast]
  rw [countOfBeats, hround]
  change Except.ok (if 1 < n then n else 1) = _
  split
  · rfl
  · rw [show n = 1 by omega]

/-- How many parts a duration lasts if `multiplier` of them make a beat. -/
def partCount (beat : Rat) (multiplier : Int) (d : Rat) : Int :=
  ⌊d / beat * multiplier⌋

/-- The unit that measures durations by as many parts as their counts have in common. -/
def commonUnit (beat : Rat) (multiplier : Int) (durations : List Rat) : Rat :=
  beat / multiplier * commonDivisor (durations.map (partCount beat multiplier))

section

variable {beat : Rat} {multiplier : Int} {durations : List Rat} (hbeat : 0 < beat)
  (hmultiplier : 0 < multiplier) (hpositive : ∀ d ∈ durations, 0 < d)
  (hwhole : ∀ d ∈ durations, ∃ n : Int, d / beat * multiplier = n)

include hwhole in
/-- The parts of a duration are counted exactly. -/
lemma partCount_cast {d : Rat} (hd : d ∈ durations) :
    (partCount beat multiplier d : Rat) = d / beat * multiplier := by
  obtain ⟨n, hn⟩ := hwhole d hd
  rw [partCount, hn, Int.floor_intCast]

include hbeat hmultiplier hpositive hwhole

/-- A duration lasts a part or more. -/
lemma partCount_pos {d : Rat} (hd : d ∈ durations) : 0 < partCount beat multiplier d := by
  have hmultiplierRat : (0 : Rat) < multiplier := by exact_mod_cast hmultiplier
  have hpos : (0 : Rat) < partCount beat multiplier d := by
    rw [partCount_cast hwhole hd]
    exact mul_pos (div_pos (hpositive d hd) hbeat) hmultiplierRat
  exact_mod_cast hpos

/-- The counts of some durations have a common divisor. -/
lemma commonDivisor_partCount_pos (hne : durations ≠ []) :
    0 < commonDivisor (durations.map (partCount beat multiplier)) := by
  apply commonDivisor_pos
  · simpa using hne
  · intro n hn
    obtain ⟨d, hd, rfl⟩ := List.mem_map.mp hn
    exact partCount_pos hbeat hmultiplier hpositive hwhole hd

/-- The common unit is a length. -/
lemma commonUnit_pos (hne : durations ≠ []) : 0 < commonUnit beat multiplier durations := by
  have hmultiplierRat : (0 : Rat) < multiplier := by exact_mod_cast hmultiplier
  have hdivisor := commonDivisor_partCount_pos hbeat hmultiplier hpositive hwhole hne
  unfold commonUnit
  exact mul_pos (div_pos hbeat hmultiplierRat) (by exact_mod_cast hdivisor)

/-- The common unit measures each duration by its count without the common divisor. -/
lemma eq_mul_commonUnit {d : Rat} (hd : d ∈ durations) :
    d = (partCount beat multiplier d / commonDivisor (durations.map (partCount beat multiplier)) :
      Int) * commonUnit beat multiplier durations := by
  have hmultiplierRat : (0 : Rat) < multiplier := by exact_mod_cast hmultiplier
  have hdivisor := commonDivisor_partCount_pos hbeat hmultiplier hpositive hwhole
    (List.ne_nil_of_mem hd)
  have hdivisorRat : (0 : Rat) < commonDivisor (durations.map (partCount beat multiplier)) := by
    exact_mod_cast hdivisor
  have hdvd : commonDivisor (durations.map (partCount beat multiplier)) ∣
      partCount beat multiplier d := commonDivisor_dvd (List.mem_map_of_mem hd)
  rw [Int.cast_div hdvd hdivisorRat.ne', partCount_cast hwhole hd, commonUnit]
  field_simp

omit hpositive in
/-- What measures the durations measures the common unit. -/
lemma isWhole_commonUnit {step : Rat} (h : ∀ d ∈ durations, IsWhole step d) :
    IsWhole step (commonUnit beat multiplier durations) := by
  have hmultiplierRat : (0 : Rat) < multiplier := by exact_mod_cast hmultiplier
  unfold commonUnit
  apply isWhole_mul_commonDivisor
  intro n hn
  obtain ⟨d, hd, rfl⟩ := List.mem_map.mp hn
  have hparts : beat / multiplier * partCount beat multiplier d = d := by
    rw [partCount_cast hwhole hd]
    field_simp
  rw [hparts]
  exact h d hd

/-- Counts without their common divisor are counts in the common unit. -/
lemma map_partCount_div (hne : durations ≠ []) :
    (durations.map (partCount beat multiplier)).map
        (· / commonDivisor (durations.map (partCount beat multiplier))) =
      durations.map (count (commonUnit beat multiplier durations)) := by
  have hunit := commonUnit_pos hbeat hmultiplier hpositive hwhole hne
  rw [List.map_map]
  refine List.map_congr_left fun d hd => ?_
  have heq := congrArg (count (commonUnit beat multiplier durations))
    (eq_mul_commonUnit hbeat hmultiplier hpositive hwhole hd)
  rw [count_eq hunit] at heq
  exact heq.symm

/-- The parts of durations in beats are counted without loss. -/
lemma mapM_countOfBeats :
    (durations.map (· / beat)).mapM (countOfBeats multiplier) =
      .ok (durations.map (partCount beat multiplier)) := by
  rw [List.mapM_map]
  refine mapM_eq_ok fun d hd => ?_
  exact countOfBeats_eq (partCount_cast hwhole hd).symm
    (partCount_pos hbeat hmultiplier hpositive hwhole hd)

end

/-- Durations that are whole multiples of a part of a beat are measured exactly, by the greatest
unit that measures them all. -/
lemma exists_ofBeats {search : UnitSearch Rat} {length : Rat} {beats : Int} {parts : Nat}
    (hbeat : 0 < length / beats) (hparts : 0 < parts)
    (hmost : (parts : Int) ≤ search.maxMultiplier) (htolerance : 0 ≤ search.tolerance)
    (hsmall : search.tolerance * search.maxMultiplier < 1) {durations offsets : List Rat}
    (hne : durations ≠ [])
    (hdurations : ∀ d ∈ durations, 0 < d ∧ IsWhole (length / beats / parts) d)
    (hoffsets : ∀ o ∈ offsets, IsWhole (length / beats / parts) o) :
    ∃ unit, 0 < unit ∧ (∀ d ∈ durations, IsWhole unit d) ∧
      (∀ step, (∀ d ∈ durations, IsWhole step d) → IsWhole step unit) ∧
      ofBeats search length beats durations offsets = .ok (durations.map (count unit), unit) := by
  have hbeats : (beats : Rat) ≠ 0 := by
    rintro hzero
    rw [hzero, div_zero] at hbeat
    exact lt_irrefl _ hbeat
  have hpartsRat : (0 : Rat) < parts := by exact_mod_cast hparts
  set beat : Rat := length / beats with hbeatEq
  have hinParts {x : Rat} (hx : IsWhole (beat / parts) x) : ∃ a : Int, x / beat * parts = a := by
    obtain ⟨a, rfl⟩ := hx
    exact ⟨a, by field_simp⟩
  have hvalues : ∀ x ∈ durations.map (· / beat) ++ offsets.map (· / beat),
      ∃ a : Int, x * parts = a := by
    intro x hx
    rcases List.mem_append.mp hx with hx | hx
    · obtain ⟨d, hd, rfl⟩ := List.mem_map.mp hx
      exact hinParts (hdurations d hd).2
    · obtain ⟨o, ho, rfl⟩ := List.mem_map.mp hx
      exact hinParts (hoffsets o ho)
  obtain ⟨multiplier, hmultiplier, hfound, hmade⟩ :=
    exists_fixedMultiplier hparts hmost htolerance hsmall hvalues
  have hpositive : ∀ d ∈ durations, 0 < d := fun d hd => (hdurations d hd).1
  have hwhole : ∀ d ∈ durations, ∃ n : Int, d / beat * multiplier = n := fun d hd =>
    hmade (d / beat) (List.mem_append_left _ (List.mem_map_of_mem hd))
  refine ⟨commonUnit beat multiplier durations,
    commonUnit_pos hbeat hmultiplier hpositive hwhole hne,
    fun d hd => ⟨_, eq_mul_commonUnit hbeat hmultiplier hpositive hwhole hd⟩,
    fun step h => isWhole_commonUnit hbeat hmultiplier hwhole h, ?_⟩
  have hmultiplierRat : (0 : Rat) < multiplier := by exact_mod_cast hmultiplier
  have hlengthDone : Scalar.div length (beats : Rat) = .ok beat := Scalar.rat_div hbeats
  have hdurationsDone : durations.mapM (Scalar.div · beat) = .ok (durations.map (· / beat)) :=
    mapM_eq_ok fun _ _ => Scalar.rat_div hbeat.ne'
  have hoffsetsDone : offsets.mapM (Scalar.div · beat) = .ok (offsets.map (· / beat)) :=
    mapM_eq_ok fun _ _ => Scalar.rat_div hbeat.ne'
  have hpartDone : Scalar.div beat (Scalar.nearest (multiplier : Rat)) = .ok (beat / multiplier) :=
    Scalar.rat_div hmultiplierRat.ne'
  simp only [ofBeats, Scalar.rat_ofInt, bind, Except.bind, hlengthDone, hdurationsDone,
    hoffsetsDone, hfound, hpartDone, mapM_countOfBeats hbeat hmultiplier hpositive hwhole,
    map_partCount_div hbeat hmultiplier hpositive hwhole hne]
  rfl

end Units

namespace Slot

/-- A fragment with its units. -/
def measured (unit : Rat) (f : Fragment Rat) : Fragment Rat :=
  { f with units := Units.count unit f.duration, offsetUnits := Units.count unit f.offset }

/-- A fragment with its units, its offset rounded to the nearest of them. -/
def rounded (unit : Rat) (f : Fragment Rat) : Fragment Rat :=
  { f with units := Units.count unit f.duration, offsetUnits := ⌊f.offset / unit + 1 / 2⌋ }

/-- Whole offsets are not moved by the rounding. -/
lemma rounded_eq_measured {unit : Rat} (hunit : 0 < unit) {f : Fragment Rat}
    (h : Units.IsWhole unit f.offset) : rounded unit f = measured unit f := by
  have hround := h.roundHalfUp hunit
  rw [Scalar.rat_roundHalfUp] at hround
  rw [rounded, measured, Except.ok.inj hround]

/-- A fragment with units given to it, its offset rounded to the nearest unit. -/
def counted (unit : Rat) (units : Int) (f : Fragment Rat) : Fragment Rat :=
  { f with units, offsetUnits := ⌊f.offset / unit + 1 / 2⌋ }

/-- Every offset is rounded. -/
lemma assignUnits_eq_counted {unit : Rat} (hunit : 0 < unit) (fragments : List (Fragment Rat))
    (units : Fragment Rat → Int) : assignUnits unit fragments (fragments.map units) =
      (fragments.map fun f => counted unit (units f) f, .ok ()) := by
  induction fragments with
  | nil => rfl
  | cons f rest ih =>
    have hoffset : (do
        let quotient ← Scalar.div f.offset unit
        Scalar.roundHalfUp quotient) = .ok ⌊f.offset / unit + 1 / 2⌋ := by
      rw [Scalar.rat_div hunit.ne']
      rfl
    rw [List.map_cons, assignUnits, hoffset, ih]
    rfl

/-- A bar whose units are found is measured: its offsets and its length are rounded to the unit. -/
lemma quantize_eq_counted {m : Measure Rat} {s : Slot Rat} {unit : Rat} (hunit : 0 < unit)
    {units : Fragment Rat → Int} (hne : s.fragments ≠ [])
    (hfound : findUnits m s.fragments = .ok (s.fragments.map units, unit)) :
    s.quantize m = .ok { s with
      fragments := s.fragments.map fun f => counted unit (units f) f
      unit
      target := ⌊m.length / unit + 1 / 2⌋ } := by
  have hnotEmpty : s.fragments.isEmpty = false := by simpa using hne
  have htarget : (do Scalar.roundHalfUp (← Scalar.div m.length unit)) =
      (.ok ⌊m.length / unit + 1 / 2⌋ : Except Failure Int) := by
    rw [Scalar.rat_div hunit.ne']
    rfl
  rw [quantize, hnotEmpty, hfound]
  simp only [Except.mapError, bind, Except.bind, assignUnits_eq_counted hunit] at htarget ⊢
  rw [htarget]
  rfl

/-- In beats, fragments whose durations and offsets are whole multiples of an allowed part of a beat
are measured by the greatest unit that measures their durations; the offsets and the length of the
bar are rounded to it. -/
lemma exists_quantize_rounded {m : Measure Rat} {s : Slot Rat} {parts : Nat}
    (hmode : m.mode = .fixed) (hbeat : 0 < m.length / m.beats) (hparts : 0 < parts)
    (hmost : (parts : Int) ≤ m.search.maxMultiplier) (htolerance : 0 ≤ m.search.tolerance)
    (hsmall : m.search.tolerance * m.search.maxMultiplier < 1) (hne : s.fragments ≠ [])
    (hduration : ∀ f ∈ s.fragments,
      0 < f.duration ∧ Units.IsWhole (m.length / m.beats / parts) f.duration)
    (hoffset : ∀ f ∈ s.fragments, Units.IsWhole (m.length / m.beats / parts) f.offset) :
    ∃ unit, 0 < unit ∧ (∀ f ∈ s.fragments, Units.IsWhole unit f.duration) ∧
      (∀ step, (∀ f ∈ s.fragments, Units.IsWhole step f.duration) → Units.IsWhole step unit) ∧
      s.quantize m = .ok { s with
        fragments := s.fragments.map (rounded unit), unit
        target := ⌊m.length / unit + 1 / 2⌋ } := by
  obtain ⟨unit, hunit, hwhole, hgreatest, heq⟩ :=
    @Units.exists_ofBeats m.search m.length m.beats parts hbeat hparts hmost htolerance hsmall
      (s.fragments.map (·.duration)) (s.fragments.map (·.offset)) (by simpa using hne)
      (by simpa using hduration) (by simpa using hoffset)
  refine ⟨unit, hunit, by simpa using hwhole, by simpa using hgreatest, ?_⟩
  refine quantize_eq_counted hunit hne ?_
  have hpositive : ¬ unit ≤ Scalar.zero := not_le.mpr hunit
  have hunits : (s.fragments.map (·.duration)).map (Units.count unit) =
      s.fragments.map fun f => Units.count unit f.duration := List.map_map
  rw [findUnits, hmode]
  simp only [heq, hunits, bind, Except.bind, if_neg hpositive]
  rfl

/-- Counting in beats resolves a step that is an allowed part of a beat. -/
structure Measure.Resolves (m : Measure Rat) (step : Rat) : Prop where
  /-- Bars are measured in beats. -/
  mode_eq : m.mode = .fixed
  /-- Bars have a length. -/
  length_pos : 0 < m.length
  /-- Bars have beats. -/
  beats_pos : 0 < m.beats
  /-- The step divides a beat into parts, and no more of them than allowed. -/
  exists_parts : ∃ parts : Nat, 0 < parts ∧ (parts : Int) ≤ m.search.maxMultiplier ∧
    step = m.length / m.beats / parts
  /-- The tolerance is not negative. -/
  tolerance_nonneg : 0 ≤ m.search.tolerance
  /-- What the tolerance accepts is smaller than the smallest part. -/
  tolerance_lt : m.search.tolerance * m.search.maxMultiplier < 1

/-- A unit measures a bar and all that is in it. -/
structure Measures (unit length : Rat) (fragments : List (Fragment Rat)) : Prop where
  /-- The unit is a length. -/
  unit_pos : 0 < unit
  /-- Durations are whole. -/
  duration : ∀ f ∈ fragments, Units.IsWhole unit f.duration
  /-- Offsets are whole. -/
  offset : ∀ f ∈ fragments, Units.IsWhole unit f.offset
  /-- The bar is whole. -/
  length : Units.IsWhole unit length

/-- In beats, fragments are measured exactly if their durations are whole multiples of a step that
is resolved and every offset, like the length of the bar, is made up of durations. -/
theorem exists_quantize {m : Measure Rat} {s : Slot Rat} {step : Rat} (hm : m.Resolves step)
    (hne : s.fragments ≠ [])
    (hduration : ∀ f ∈ s.fragments, 0 < f.duration ∧ Units.IsWhole step f.duration)
    (hoffset : ∀ f ∈ s.fragments, Units.IsWhole step f.offset)
    (hmade : ∀ unit, (∀ f ∈ s.fragments, Units.IsWhole unit f.duration) →
      (∀ f ∈ s.fragments, Units.IsWhole unit f.offset) ∧ Units.IsWhole unit m.length) :
    ∃ unit, Measures unit m.length s.fragments ∧
      s.quantize m = .ok { s with
        fragments := s.fragments.map (measured unit)
        unit
        target := Units.count unit m.length } := by
  obtain ⟨parts, hparts, hmost, rfl⟩ := hm.exists_parts
  have hbeat : 0 < m.length / m.beats := div_pos hm.length_pos (by exact_mod_cast hm.beats_pos)
  obtain ⟨unit, hunit, hdurations, -, heq⟩ :=
    exists_quantize_rounded hm.mode_eq hbeat hparts hmost hm.tolerance_nonneg hm.tolerance_lt hne
      hduration hoffset
  obtain ⟨hoffsets, hbar⟩ := hmade unit hdurations
  have htarget := hbar.roundHalfUp hunit
  rw [Scalar.rat_roundHalfUp] at htarget
  refine ⟨unit, ⟨hunit, hdurations, hoffsets, hbar⟩, ?_⟩
  rw [heq, Except.ok.inj htarget,
    List.map_congr_left fun f hf => rounded_eq_measured hunit (hoffsets f hf)]

end Slot

end PatternScore
