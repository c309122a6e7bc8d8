import PatternScore.Proofs.Bar.FixedUnits

/-!
# What measuring a bar gives

Both ways of measuring count every duration with at least one unit, and a division by the common
divisor of the counts keeps that; so a measured bar has its fragments as before, each with at least
one unit (`Slot.MeasuredAs`). Nothing is supposed about the numbers that time is measured in: this
holds as soon as the measuring ends without a failure, and it ends so exactly if each of its steps
does (`Slot.quantize_eq_ok_iff`).
-/

namespace PatternScore

namespace Units

/-! ## Common divisors -/

/-- What divides several integers divides their common divisor. -/
lemma dvd_commonDivisor {units : List Int} {d : Int} (h : ∀ n ∈ units, d ∣ n) :
    d ∣ commonDivisor units := by
  cases units with
  | nil => exact dvd_zero d
  | cons n rest =>
    obtain ⟨hn, hrest⟩ := List.forall_mem_cons.mp h
    change d ∣ rest.foldl (fun d m => (Int.gcd d m : Int)) n
    clear h
    induction rest generalizing n with
    | nil => exact hn
    | cons m rest ih =>
      obtain ⟨hm, hrest⟩ := List.forall_mem_cons.mp hrest
      exact ih _ (Int.dvd_coe_gcd hn hm) hrest

/-- Positive integers divided by their common divisor are positive. -/
lemma pos_ediv_commonDivisor {units : List Int} (h : ∀ n ∈ units, 0 < n) {n : Int}
    (hn : n ∈ units) : 0 < n / commonDivisor units := by
  have hpos := commonDivisor_pos (List.ne_nil_of_mem hn) h
  exact Int.ediv_pos_of_pos_of_dvd (h n hn) hpos.le (commonDivisor_dvd hn)

/-- After the division, nothing but one divides them all. -/
lemma dvd_one_of_dvd_ediv {units : List Int} (hne : units ≠ []) (h : ∀ n ∈ units, 0 < n) {d : Int}
    (hd : ∀ n ∈ units, d ∣ n / commonDivisor units) : d ∣ 1 := by
  have hpos := commonDivisor_pos hne h
  have hdvd : d * commonDivisor units ∣ 1 * commonDivisor units := by
    rw [one_mul]
    refine dvd_commonDivisor fun n hn => ?_
    rw [← Int.ediv_mul_cancel (commonDivisor_dvd hn)]
    exact mul_dvd_mul_right (hd n hn) _
  exact (mul_dvd_mul_iff_right hpos.ne').mp hdvd

/-! ## Counting -/

/-- Durations are counted one by one, each with at least one unit. -/
structure Counts {τ : Type} (durations : List τ) (units : List Int) : Prop where
  /-- Each duration has its units. -/
  length_eq : units.length = durations.length
  /-- There is no duration of no units. -/
  one_le : ∀ n ∈ units, 1 ≤ n

section Counts

variable {τ : Type} {durations : List τ} {units : List Int}

/-- Counts divided by their common divisor are counts. -/
lemma Counts.ediv (h : Counts durations units) :
    Counts durations (units.map (· / commonDivisor units)) where
  length_eq := (List.length_map _).trans h.length_eq
  one_le := List.forall_mem_map.mpr fun _ hn => pos_ediv_commonDivisor h.one_le hn

/-- Counting one by one with at least one unit gives counts. -/
lemma counts_of_mapM {count : τ → Except Failure Int} (hcount : ∀ d n, count d = .ok n → 1 ≤ n)
    (h : durations.mapM count = .ok units) : Counts durations units := by
  have hall := mapM_eq_ok_iff.mp h
  refine ⟨hall.length_eq.symm, fun n hn => ?_⟩
  obtain ⟨d, -, hd⟩ := exists_mem_of_forall₂ hall hn
  exact hcount d n hd

end Counts

variable {τ : Type} [Scalar τ] {search : UnitSearch τ} {durations offsets : List τ}
  {units : List Int} {unit quantum d length : τ} {n beats multiplier : Int}

/-- No duration is counted as nothing. -/
lemma one_le_countOf (h : countOf quantum d = .ok n) : 1 ≤ n := by
  unfold countOf at h
  split at h
  · obtain ⟨quotient, -, h⟩ := exists_of_bind_eq_ok h
    obtain ⟨count, -, h⟩ := exists_of_bind_eq_ok h
    cases h
    split <;> omega
  · cases h
    exact le_rfl

/-- No duration is counted as nothing, in multiples of beats either. -/
lemma one_le_countOfBeats (h : countOfBeats multiplier d = .ok n) : 1 ≤ n := by
  obtain ⟨count, -, h⟩ := exists_of_bind_eq_ok h
  cases h
  split <;> omega

/-- The minimal way counts. -/
lemma counts_ofDurations (h : ofDurations search durations = .ok (units, unit)) :
    Counts durations units := by
  unfold ofDurations at h
  split at h
  · cases h
    exact ⟨List.length_map _, List.forall_mem_map.mpr fun _ _ => le_rfl⟩
  · obtain ⟨subdivision, -, h⟩ := exists_of_bind_eq_ok h
    obtain ⟨quantum, -, h⟩ := exists_of_bind_eq_ok h
    obtain ⟨counts, hcounts, h⟩ := exists_of_bind_eq_ok h
    cases h
    exact (counts_of_mapM (fun _ _ => one_le_countOf) hcounts).ediv

/-- The length of a beat, if it is one. -/
def beatOf (length : τ) (beats : Int) : Except Failure τ := do
  Scalar.div length (← Scalar.ofInt beats)

/-- Units are found in beats step by step. -/
lemma ofBeats_eq_ok_iff :
    ofBeats search length beats durations offsets = .ok (units, unit) ↔
      ∃ beat lengths starts multiplier counts part, beatOf length beats = .ok beat ∧
        durations.mapM (Scalar.div · beat) = .ok lengths ∧
        offsets.mapM (Scalar.div · beat) = .ok starts ∧
        fixedMultiplier search (lengths ++ starts) = .ok multiplier ∧
        lengths.mapM (countOfBeats multiplier) = .ok counts ∧
        Scalar.div beat (Scalar.nearest (multiplier : Rat)) = .ok part ∧
        units = counts.map (· / commonDivisor counts) ∧
        unit = part * Scalar.nearest (commonDivisor counts : Rat) := by
  constructor
  · intro h
    obtain ⟨whole, hwhole, h⟩ := exists_of_bind_eq_ok h
    obtain ⟨beat, hbeat, h⟩ := exists_of_bind_eq_ok h
    obtain ⟨lengths, hlengths, h⟩ := exists_of_bind_eq_ok h
    obtain ⟨starts, hstarts, h⟩ := exists_of_bind_eq_ok h
    obtain ⟨multiplier, hmultiplier, h⟩ := exists_of_bind_eq_ok h
    obtain ⟨counts, hcounts, h⟩ := exists_of_bind_eq_ok h
    obtain ⟨part, hpart, h⟩ := exists_of_bind_eq_ok h
    cases h
    refine ⟨beat, lengths, starts, multiplier, counts, part, ?_, hlengths, hstarts, hmultiplier,
      hcounts, hpart, rfl, rfl⟩
    simp only [beatOf, hwhole, bind, Except.bind, hbeat]
  · rintro ⟨beat, lengths, starts, multiplier, counts, part, hbeat, hlengths, hstarts,
      hmultiplier, hcounts, hpart, rfl, rfl⟩
    obtain ⟨whole, hwhole, hbeat⟩ := exists_of_bind_eq_ok hbeat
    unfold ofBeats
    simp only [hwhole, hbeat, hlengths, hstarts, hmultiplier, hcounts, hpart, bind, Except.bind]
    rfl

/-- The fixed way counts. -/
lemma counts_ofBeats (h : ofBeats search length beats durations offsets = .ok (units, unit)) :
    Counts durations units := by
  obtain ⟨beat, lengths, starts, multiplier, counts, part, -, hlengths, -, -, hcounts, -, rfl, -⟩ :=
    ofBeats_eq_ok_iff.mp h
  have hcounted := (counts_of_mapM (fun _ _ => one_le_countOfBeats) hcounts).ediv
  exact ⟨hcounted.length_eq.trans (mapM_eq_ok_iff.mp hlengths).length_eq.symm, hcounted.one_le⟩

end Units

/-! ## Bars -/

/-- A fragment is as before and has at least one unit. -/
structure Fragment.MeasuredAs {τ : Type} (f f' : Fragment τ) : Prop where
  /-- It begins as before. -/
  offset_eq : f'.offset = f.offset
  /-- It lasts as before. -/
  duration_eq : f'.duration = f.duration
  /-- It sounds as before. -/
  pitch_eq : f'.pitch = f.pitch
  /-- It belongs to the chord of before. -/
  chord_eq : f'.chord = f.chord
  /-- It lasts at least one unit. -/
  one_le_units : 1 ≤ f'.units

namespace Slot

variable {τ : Type} [Scalar τ] {m : Measure τ} {s s' : Slot τ} {fragments done : List (Fragment τ)}
  {units : List Int} {unit : τ}

/-- A bar is as before, with its fragments measured and its full length rounded to units. -/
structure MeasuredAs (m : Measure τ) (s s' : Slot τ) : Prop where
  /-- It has the number of before. -/
  index_eq : s'.index = s.index
  /-- It is an upbeat if it was one. -/
  pickup_eq : s'.pickup = s.pickup
  /-- Its fragments are those of before, measured. -/
  fragments : List.Forall₂ Fragment.MeasuredAs s.fragments s'.fragments
  /-- Its unit is a length, if the length of a bar is one. -/
  unit_eq : s'.unit = m.length ∨ ¬ s'.unit ≤ Scalar.zero
  /-- Its full length is that of a bar in units, rounded. -/
  target_eq : (do Scalar.roundHalfUp (← Scalar.div m.length s'.unit)) = .ok s'.target

/-- The units that are found count the durations, and the unit is a length if that of a bar is. -/
lemma counts_findUnits (h : findUnits m fragments = .ok (units, unit)) :
    Units.Counts (fragments.map (·.duration)) units ∧ (unit = m.length ∨ ¬ unit ≤ Scalar.zero) := by
  have hunit (unit : τ) : (if unit ≤ Scalar.zero then m.length else unit) = m.length ∨
      ¬ (if unit ≤ Scalar.zero then m.length else unit) ≤ Scalar.zero := by
    split
    · exact .inl rfl
    · exact .inr ‹_›
  unfold findUnits at h
  split at h
  · obtain ⟨⟨units', unit'⟩, hfound, h⟩ := exists_of_bind_eq_ok h
    cases h
    exact ⟨Units.counts_ofDurations hfound, hunit unit'⟩
  · obtain ⟨⟨units', unit'⟩, hfound, h⟩ := exists_of_bind_eq_ok h
    cases h
    exact ⟨Units.counts_ofBeats hfound, hunit unit'⟩

/-- A fragment is as before, with its offset counted in units and with units given to it. -/
structure Assigned (unit : τ) (f f' : Fragment τ) : Prop where
  /-- Nothing but its units changes. -/
  same : f' = { f with units := f'.units, offsetUnits := f'.offsetUnits }
  /-- The offset is rounded. -/
  offset_eq : (do Scalar.roundHalfUp (← Scalar.div f.offset unit)) = .ok f'.offsetUnits

/-- Units are given to fragments one by one, and each offset is counted. -/
lemma assignUnits_eq_ok_iff (hlength : units.length = fragments.length) :
    assignUnits unit fragments units = (done, .ok ()) ↔
      List.Forall₂ (Assigned unit) fragments done ∧ units = done.map (·.units) := by
  induction fragments generalizing units done with
  | nil =>
    obtain rfl := List.length_eq_zero_iff.mp hlength
    constructor
    · intro h
      cases h
      exact ⟨.nil, rfl⟩
    · rintro ⟨hdone, -⟩
      rw [List.forall₂_nil_left_iff.mp hdone]
      rfl
  | cons f rest ih =>
    cases units with
    | nil => cases hlength
    | cons n more =>
      have hmore : more.length = rest.length := by simpa using hlength
      rw [assignUnits]
      cases hoffset : (do Scalar.roundHalfUp (← Scalar.div f.offset unit)) with
      | error failure =>
        constructor
        · intro h
          cases h
        · rintro ⟨hdone, -⟩
          cases hdone with
          | cons hf _ =>
            have heq := hf.offset_eq
            rw [hoffset] at heq
            cases heq
      | ok offsetUnits =>
        constructor
        · intro h
          obtain ⟨rfl, hresult⟩ := Prod.mk.inj h
          obtain ⟨hrest, hunits⟩ := (ih hmore).mp (Prod.ext rfl hresult)
          refine ⟨.cons ⟨rfl, hoffset⟩ hrest, ?_⟩
          rw [List.map_cons, ← hunits]
        · rintro ⟨hdone, hunits⟩
          cases hdone with
          | cons hf hrest =>
            obtain ⟨rfl, rfl⟩ := List.cons.inj hunits
            have heq := hf.offset_eq
            rw [hoffset] at heq
            obtain rfl := Except.ok.inj heq
            rw [(ih hmore).mpr ⟨hrest, rfl⟩, hf.same]

/-- A bar with fragments is measured by finding its units and rounding its offsets and its length to
them. -/
lemma quantize_eq_ok_iff (hne : s.fragments ≠ []) : s.quantize m = .ok s' ↔
    ∃ done unit target, findUnits m s.fragments = .ok (done.map (·.units), unit) ∧
      List.Forall₂ (Assigned unit) s.fragments done ∧
      (do Scalar.roundHalfUp (← Scalar.div m.length unit)) = .ok target ∧
      s' = { s with fragments := done, unit, target } := by
  have hnotEmpty : s.fragments.isEmpty = false := by simpa using hne
  have hlength {units : List Int} {unit : τ}
      (hfound : findUnits m s.fragments = .ok (units, unit)) :
      units.length = s.fragments.length := by
    rw [(counts_findUnits hfound).1.length_eq, List.length_map]
  unfold quantize
  rw [hnotEmpty]
  constructor
  · intro h
    obtain ⟨⟨units, unit⟩, hfound, h⟩ := exists_of_bind_eq_ok h
    obtain ⟨⟨⟩, hassigned, h⟩ := exists_of_bind_eq_ok h
    obtain ⟨target, htarget, h⟩ := exists_of_bind_eq_ok h
    cases h
    have hfound := mapError_eq_ok_iff.mp hfound
    obtain ⟨hdone, hunits⟩ := (assignUnits_eq_ok_iff (hlength hfound)).mp
      (Prod.ext rfl (mapError_eq_ok_iff.mp hassigned))
    rw [hunits] at hfound
    exact ⟨_, unit, target, hfound, hdone, mapError_eq_ok_iff.mp htarget, rfl⟩
  · rintro ⟨done, unit, target, hfound, hdone, htarget, rfl⟩
    have hassigned := (assignUnits_eq_ok_iff (hlength hfound)).mpr ⟨hdone, rfl⟩
    simp only [hfound, Except.mapError, bind, Except.bind, hassigned] at htarget ⊢
    rw [htarget]
    rfl

/-- A bar with fragments is measured. -/
theorem measuredAs_quantize (h : s.quantize m = .ok s') (hne : s.fragments ≠ []) :
    s.MeasuredAs m s' := by
  obtain ⟨done, unit, target, hfound, hassigned, htarget, rfl⟩ := (quantize_eq_ok_iff hne).mp h
  obtain ⟨hcounts, hunit⟩ := counts_findUnits hfound
  have hunits : ∀ f' ∈ done, 1 ≤ f'.units := List.forall_mem_map.mp hcounts.one_le
  refine ⟨rfl, rfl, ?_, hunit, htarget⟩
  apply List.Forall₂.flip
  refine ((List.forall₂_and_left _ _).mpr ⟨hunits, hassigned.flip⟩).imp ?_
  rintro f' f ⟨hpos, hsame, -⟩
  rw [hsame]
  exact ⟨rfl, rfl, rfl, rfl, hpos⟩

end Slot

end PatternScore
