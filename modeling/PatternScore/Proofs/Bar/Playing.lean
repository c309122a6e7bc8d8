import PatternScore.Proofs.Bar.Collecting
import PatternScore.Proofs.Bar.FixedUnits
import PatternScore.Proofs.Bar.Holding
import PatternScore.Proofs.Tiling

/-!
# Playing the tokens of a bar

The tokens of a bar are played one after another from the time at which the bar begins, each for its
units. Where the spans of a bar follow each other without gaps, what is played is the spans: the
common divisor that shortens the tokens lengthens the unit (`Span.playFrom_map`). A bar whose spans
last is grouped by that divisor (`Slot.Lasting.group_eq`).
-/

namespace PatternScore

/-- A token that is played. -/
structure Played where
  /-- The token. -/
  token : Token
  /-- When it begins. -/
  start : Rat
  /-- When it stops. -/
  stop : Rat

namespace Bar

/-- The tokens of a bar played one after another from a time on. -/
def playFrom (unit : Rat) : Rat → Bar → List Played
  | _, [] => []
  | time, tok :: rest =>
    ⟨tok, time, time + tok.units * unit⟩ :: playFrom unit (time + tok.units * unit) rest

end Bar

namespace Slot

/-- What is played in a bar. -/
def played (length : Rat) (s : Slot Rat) : List Played :=
  s.tokens.playFrom s.unit (s.index * length)

/-- What is played in the bars of a voice. -/
def play (length : Rat) (slots : List (Slot Rat)) : List Played :=
  slots.flatMap (played length)

end Slot

/-- The length of a bar is the sum of the lengths of its tokens. -/
lemma Bar.units_eq_sum (bar : Bar) : bar.units = (bar.map Token.units).sum := by
  rw [units, List.sum_eq_foldl, List.foldl_map]

namespace Span

variable {line : List Span} {a b divisor : Int}

/-- A token lasts the units that it is given. -/
@[simp]
lemma units_token (s : Span) (units : Int) : (s.token units).units = units := by
  unfold token
  split <;> rfl

/-- A rest becomes a rest and a note a note. -/
@[simp]
lemma isRest_token (s : Span) (units : Int) : (s.token units).isRest = s.isRest := by
  unfold token
  split
  · rename_i h
    exact h.symm
  · rename_i h
    exact (Bool.eq_false_iff.mpr h).symm

/-- What a span sounds like when it is played. -/
def play (time unit : Rat) (divisor : Int) (s : Span) : Played :=
  ⟨s.token (s.units / divisor), time + s.start * unit, time + s.stop * unit⟩

/-- Spans without gaps are played as they are. -/
lemma playFrom_map (h : Tiles start stop a line b) (hdivisor : divisor ≠ 0)
    (hdvd : ∀ s ∈ line, divisor ∣ s.units) (time unit : Rat) :
    Bar.playFrom (unit * divisor) (time + a * unit)
        (line.map fun s => s.token (s.units / divisor)) = line.map (play time unit divisor) := by
  induction line generalizing a with
  | nil => rfl
  | cons s rest ih =>
    obtain ⟨hstart, -, hrest⟩ := h
    have hdivisorRat : (divisor : Rat) ≠ 0 := by exact_mod_cast hdivisor
    have hunits : ((s.units / divisor : Int) : Rat) * (unit * divisor) = s.units * unit := by
      rw [Int.cast_div (hdvd s List.mem_cons_self) hdivisorRat]
      field_simp
    have hstop : time + a * unit + ((s.units / divisor : Int) : Rat) * (unit * divisor) =
        time + s.stop * unit := by
      rw [hunits, Span.stop, hstart]
      push_cast
      ring
    have hnext := ih hrest fun t ht => hdvd t (List.mem_cons_of_mem _ ht)
    rw [List.map_cons, Bar.playFrom, units_token, hstop, hnext, List.map_cons, play, hstart]

/-- Spans without gaps last as long as the time from the first to the last. -/
lemma sum_units (h : Tiles start stop a line b) : a + (line.map (·.units)).sum = b := by
  induction line generalizing a with
  | nil => exact (add_zero a).trans h
  | cons s rest ih =>
    obtain ⟨hstart, -, hrest⟩ := h
    have hnext := ih hrest
    rw [List.map_cons, List.sum_cons, ← hnext, Span.stop, hstart]
    omega

/-- Lengths may be divided one by one. -/
lemma sum_ediv (hdvd : ∀ s ∈ line, divisor ∣ s.units) :
    (line.map fun s => s.units / divisor).sum = (line.map (·.units)).sum / divisor := by
  induction line with
  | nil => exact (Int.zero_ediv divisor).symm
  | cons s rest ih =>
    obtain ⟨hs, hrest⟩ := List.forall_mem_cons.mp hdvd
    rw [List.map_cons, List.sum_cons, List.map_cons, List.sum_cons, ih hrest,
      Int.add_ediv_of_dvd_left hs]

/-- Tokens of divided lengths make up a bar of the divided length. -/
lemma units_map_token (hdvd : ∀ s ∈ line, divisor ∣ s.units) :
    Bar.units (line.map fun s => s.token (s.units / divisor)) =
      (line.map (·.units)).sum / divisor := by
  rw [Bar.units_eq_sum, List.map_map, ← sum_ediv hdvd]
  simp only [Function.comp_def, units_token]

end Span

/-! ## The line of a bar -/

namespace Slot

section Line

variable {τ : Type}

/-- The line that a measured bar is laid out as. -/
def laid (mode : ChordMode) (s : Slot τ) : List Span :=
  Span.layOut (Span.collect mode s.fragments)

/-- A bar without fragments has nothing to lay out. -/
lemma laid_of_nil {s : Slot τ} (h : s.fragments = []) (mode : ChordMode) : s.laid mode = [] := by
  rw [laid, h, Span.collect, List.foldl_nil, List.map_nil, List.mergeSort_nil]
  rfl

/-- What divides all lengths of the line. -/
def divisor (mode : ChordMode) (s : Slot τ) : Int :=
  Units.commonDivisor ((s.laid mode).map (·.units))

/-- The line of a bar has a span, and every span of it lasts. -/
structure Lasting (mode : ChordMode) (s : Slot τ) : Prop where
  /-- There is a span. -/
  ne_nil : s.laid mode ≠ []
  /-- Every span has a unit. -/
  units_pos : ∀ x ∈ s.laid mode, 0 < x.units

namespace Lasting

variable {mode : ChordMode} {s : Slot τ} (h : s.Lasting mode)

include h

/-- The lengths to be divided are positive. -/
lemma lengths_pos : ∀ n ∈ (s.laid mode).map (·.units), 0 < n :=
  List.forall_mem_map.mpr h.units_pos

/-- There is a length to be divided. -/
lemma lengths_ne_nil : (s.laid mode).map (·.units) ≠ [] :=
  mt List.map_eq_nil_iff.mp h.ne_nil

/-- The common divisor of positive lengths is positive. -/
lemma divisor_pos : 0 < s.divisor mode :=
  Units.commonDivisor_pos h.lengths_ne_nil h.lengths_pos

/-- No span of the line is left out. -/
lemma filter_laid : (s.laid mode).filter (0 < ·.units) = s.laid mode :=
  List.filter_eq_self.mpr fun x hx => decide_eq_true (h.units_pos x hx)

/-- The tokens are the spans with their lengths divided. -/
lemma zipWith_laid :
    (s.laid mode).zipWith Span.token (Units.reduce ((s.laid mode).map (·.units))) =
      (s.laid mode).map fun x => x.token (x.units / s.divisor mode) := by
  rw [Units.reduce_eq_map h.divisor_pos, List.map_map, List.zipWith_map_right, List.zipWith_self]
  rfl

end Lasting

/-- The common divisor divides the length of every span. -/
lemma divisor_dvd {mode : ChordMode} {s : Slot τ} {x : Span} (hx : x ∈ s.laid mode) :
    s.divisor mode ∣ x.units :=
  Units.commonDivisor_dvd (List.mem_map_of_mem hx)

end Line

/-- A bar in units of several of its own: the unit is lengthened, and the full length is rounded to
it. One unit is left as it is. -/
def coarsen {τ : Type} [Scalar τ] (divisor : Int) (s : Slot τ) : Except (Stopped τ) (Slot τ) :=
  if divisor = 1 then .ok s
  else do
    let factor : τ ← (Scalar.ofInt divisor).mapError (⟨·, s⟩)
    let s := { s with unit := s.unit * factor }
    let target ← (do
      let quotient : τ ← Scalar.ratio s.target divisor
      Scalar.roundHalfUp quotient).mapError (⟨·, s⟩)
    return { s with target }

/-- Nothing fails where the full length is in range and can be divided. -/
lemma exists_coarsen {τ : Type} [Scalar τ] {s : Slot τ} {divisor : Int}
    (hrange : Scalar.InRange τ s.target) (htarget : 0 < s.target) (hpos : 0 < divisor)
    (hdvd : divisor ∣ s.target) : ∃ s', s.coarsen divisor = .ok s' := by
  have hle := Int.le_of_dvd htarget hdvd
  have hquotient : 0 < s.target / divisor := Int.ediv_pos_of_pos_of_dvd htarget hpos.le hdvd
  obtain ⟨factor, -, hfactor, -⟩ := hrange divisor hpos hle
  obtain ⟨x, target, hx, hrounded⟩ :=
    hrange (s.target / divisor) hquotient (Int.ediv_le_self _ htarget.le)
  have hratio := Scalar.ratio_of_dvd hpos.ne' hdvd hx
  unfold coarsen
  split
  · exact ⟨s, rfl⟩
  · simp only [hfactor, Except.mapError, bind, Except.bind, hratio, hrounded]
    exact ⟨_, rfl⟩

/-- A bar whose spans last is brought to the units of its tokens. -/
lemma Lasting.group_eq_coarsen {τ : Type} [Scalar τ] {mode : ChordMode} {s : Slot τ}
    (h : s.Lasting mode) :
    s.group mode = (s.coarsen (s.divisor mode)).map fun s' => { s' with
      tokens := (s.laid mode).map fun x => x.token (x.units / s.divisor mode) } := by
  have hpos := h.divisor_pos
  have hne : (s.laid mode).isEmpty = false := by simpa using h.ne_nil
  unfold group coarsen
  dsimp only
  rw [← laid, h.filter_laid, h.zipWith_laid, hne, Bool.false_or, ← divisor]
  by_cases hone : s.divisor mode = 1
  · rw [if_pos (by simp [hone]), if_pos hone]
    rfl
  · have hseveral : ¬ s.divisor mode ≤ 1 := by omega
    rw [if_neg (by simpa using hseveral), if_neg hone]
    cases hfactor : (Scalar.ofInt (s.divisor mode) : Except Failure τ) with
    | error failure => rfl
    | ok factor =>
      cases hquotient : (Scalar.ratio s.target (s.divisor mode) : Except Failure τ) with
      | error failure => simp [Except.mapError, Except.map, bind, Except.bind]
      | ok quotient =>
        cases htarget : Scalar.roundHalfUp quotient <;>
          simp [htarget, Except.mapError, Except.map, bind, Except.bind, pure, Except.pure]

variable {mode : ChordMode} {s : Slot Rat}

/-- In exact arithmetic nothing fails. -/
lemma coarsen_eq {divisor : Int} (h : 0 < divisor) :
    s.coarsen divisor = .ok { s with
      unit := s.unit * divisor
      target := ⌊(s.target : Rat) / divisor + 1 / 2⌋ } := by
  unfold coarsen
  split
  · rename_i hone
    have htarget : ⌊(s.target : Rat) / (1 : Int) + 1 / 2⌋ = s.target := by
      rw [Int.cast_one, div_one]
      exact Except.ok.inj (Scalar.roundHalfUp_intCast s.target)
    rw [hone, htarget]
    simp
  · have hquotient : (Scalar.ratio s.target divisor : Except Failure Rat) =
        .ok (s.target / divisor) := Scalar.rat_ratio h.ne'
    simp only [Scalar.rat_ofInt, Except.mapError, bind, Except.bind, hquotient]
    rfl

/-- A bar whose spans last is grouped without failure. -/
lemma Lasting.group_eq (h : s.Lasting mode) :
    s.group mode = .ok { s with
      tokens := (s.laid mode).map fun x => x.token (x.units / s.divisor mode)
      unit := s.unit * s.divisor mode
      target := ⌊(s.target : Rat) / s.divisor mode + 1 / 2⌋ } := by
  rw [h.group_eq_coarsen, coarsen_eq h.divisor_pos]
  rfl

/-- The tokens of a bar whose spans follow each other without gaps. -/
theorem exists_group {line : List Span}
    (hline : Span.layOut (Span.collect mode s.fragments) = line)
    (htiles : Tiles Span.start Span.stop 0 line s.target) (htarget : 0 < s.target) :
    ∃ divisor : Int, 0 < divisor ∧ (∀ x ∈ line, divisor ∣ x.units) ∧
      s.group mode = .ok { s with
        tokens := line.map fun x => x.token (x.units / divisor)
        unit := s.unit * divisor
        target := s.target / divisor } := by
  obtain rfl : s.laid mode = line := hline
  have hlasting : s.Lasting mode := by
    constructor
    · intro hnil
      rw [hnil] at htiles
      exact absurd (show (0 : Int) = s.target from htiles) htarget.ne
    · intro x hx
      have := (htiles.mem hx).2.1
      unfold Span.stop at this
      omega
  have hdivisor : (s.divisor mode : Rat) ≠ 0 := by exact_mod_cast hlasting.divisor_pos.ne'
  have hdvd : s.divisor mode ∣ s.target := by
    rw [← Span.sum_units htiles, zero_add]
    exact List.dvd_sum (List.forall_mem_map.mpr fun x hx => divisor_dvd hx)
  have htarget : ⌊(s.target : Rat) / s.divisor mode + 1 / 2⌋ = s.target / s.divisor mode := by
    rw [← Int.cast_div hdvd hdivisor]
    exact Except.ok.inj (Scalar.roundHalfUp_intCast _)
  refine ⟨s.divisor mode, hlasting.divisor_pos, fun x hx => divisor_dvd hx, ?_⟩
  rw [hlasting.group_eq, htarget]

end Slot

end PatternScore
