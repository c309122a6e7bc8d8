import PatternScore.Proofs.Bar.Forming
import PatternScore.Proofs.Bar.Layers
import PatternScore.Proofs.Bar.Playing
import PatternScore.Proofs.Bar.Sequential
import PatternScore.Proofs.Notation.ReadBack

/-!
# What a bar written in layers plays

A bar that is written in layers is measured without loss, and its line has no gaps: where no note
sounds, a rest was written, and the layout keeps it. So the tokens fill the bar (`Renders.tiles`),
silence is played exactly where every layer rests (`Renders.silent`), and every note begins on time
(`Renders.sounds`). In a bar of a single layer every note also ends on time (`notes_played`).
-/

namespace PatternScore

/-! ## Instants in units -/

namespace Span

variable {unit time : Rat} {s : Span} {f : Fragment Rat}

/-- An instant belongs to a span if the unit in which it lies does. -/
lemma has_floor_iff (hunit : 0 < unit) :
    s.Has ⌊time / unit⌋ ↔ s.start * unit ≤ time ∧ time < s.stop * unit := by
  rw [Has, Int.le_floor, Int.floor_lt, le_div_iff₀ hunit, div_lt_iff₀ hunit]

/-- The span of a measured fragment begins and ends when the fragment does. -/
lemma Matches.times {length : Rat} {fragments : List (Fragment Rat)}
    (h : Matches s (Slot.measured unit f)) (hmeasures : Slot.Measures unit length fragments)
    (hf : f ∈ fragments) : s.start * unit = f.offset ∧ s.stop * unit = f.stop := by
  have hoffset : (Units.count unit f.offset : Rat) * unit = f.offset :=
    (hmeasures.offset f hf).count_mul
  have hduration : (Units.count unit f.duration : Rat) * unit = f.duration :=
    (hmeasures.duration f hf).count_mul
  have hstart : s.start = Units.count unit f.offset := h.start_eq
  have hunits : s.units = Units.count unit f.duration := h.units_eq
  refine ⟨by rw [hstart, hoffset], ?_⟩
  rw [Span.stop, hstart, hunits, Int.cast_add, add_mul, hoffset, hduration]
  rfl

/-- A span with a length gives a token that can be written. -/
lemma isWritable_token {units : Int} (hunits : 0 < units)
    (hpitches : s.isRest = false → s.pitches ≠ []) : (s.token units).IsWritable := by
  refine ⟨(units_token s units).symm ▸ hunits, ?_⟩
  by_cases hrest : s.isRest = true
  · simp [token, hrest, Token.isMute]
  · have hnote : s.isRest = false := by simpa using hrest
    obtain ⟨p, rest, heq⟩ := List.exists_cons_of_ne_nil (hpitches hnote)
    simp [token, hnote, Token.isMute, heq]

end Span

namespace Slot

/-- Notes of one written chord begin and last alike, where that is what makes a chord. -/
def Chorded (mode : ChordMode) (fragments : List (Fragment Rat)) : Prop :=
  mode = .group → ∀ f ∈ fragments, ∀ g ∈ fragments, f.isRest = false → g.isRest = false →
    f.chord.isSome → f.chord = g.chord → f.offset = g.offset ∧ f.duration = g.duration

/-- The line of a bar that is measured by a unit. -/
def line (mode : ChordMode) (unit : Rat) (fragments : List (Fragment Rat)) : List Span :=
  Span.layOut (Span.collect mode (fragments.map (measured unit)))

variable {mode : ChordMode} {unit length time : Rat} {fragments : List (Fragment Rat)}

/-- Fragments of one chord agree when they are measured. -/
lemma Chorded.agree (h : Chorded mode fragments) (unit : Rat) :
    Span.Agree mode (fragments.map (measured unit)) := by
  cases mode with
  | timing => exact Span.agree_timing _
  | group =>
    intro f' hf' g' hg' hkey
    obtain ⟨f, hf, rfl⟩ := List.mem_map.mp hf'
    obtain ⟨g, hg, rfl⟩ := List.mem_map.mp hg'
    have hsame : f.offset = g.offset ∧ f.duration = g.duration →
        f.pitch.isNone = g.pitch.isNone →
        (measured unit f).offsetUnits = (measured unit g).offsetUnits ∧
          (measured unit f).units = (measured unit g).units ∧
          (measured unit f).pitch.isNone = (measured unit g).pitch.isNone := by
      rintro ⟨hoffset, hduration⟩ hkind
      refine ⟨?_, ?_, hkind⟩
      · exact congrArg (Units.count unit) hoffset
      · exact congrArg (Units.count unit) hduration
    have hpitch (f : Fragment Rat) : (measured unit f).pitch = f.pitch := rfl
    have hmark (f : Fragment Rat) : (measured unit f).chord = f.chord := rfl
    simp only [Span.Key.ofFragment, hpitch, hmark] at hkey
    cases hfp : f.pitch with
    | none => cases hgp : g.pitch <;> cases hgc : g.chord <;> simp_all
    | some p =>
      cases hgp : g.pitch with
      | none => cases hfc : f.chord <;> simp_all
      | some q =>
        cases hfc : f.chord with
        | none => cases hgc : g.chord <;> simp_all
        | some mark =>
          have heq : f.chord = g.chord := by
            cases hgc : g.chord <;> simp_all
          refine hsame (h rfl f hf g hg ?_ ?_ ?_ heq) ?_ <;> simp [Fragment.isRest, *]

/-! ## The line of a bar -/

section Line

variable (hlayered : Layered length fragments) (hmeasures : Measures unit length fragments)
  (hchorded : Chorded mode fragments)

include hlayered hmeasures in
/-- A fragment that lasts is measured as a unit at least. -/
lemma units_pos_of_mem_measured : ∀ f ∈ fragments.map (measured unit), 0 < f.units :=
  List.forall_mem_map.mpr fun f hf =>
    (hmeasures.duration f hf).count_pos hmeasures.unit_pos (hlayered.duration_pos hf)

include hlayered hmeasures in
/-- The spans of the line have the form of tokens. -/
lemma allFormed_line : Span.AllFormed (line mode unit fragments) :=
  (Span.formed_collect mode (units_pos_of_mem_measured hlayered hmeasures)).layOut

include hchorded in
/-- The spans of the bar are those of its fragments. -/
lemma collected_measured : Span.Collected (fragments.map (measured unit))
    (Span.collect mode (fragments.map (measured unit))) :=
  Span.collected_collect (hchorded.agree unit)

include hmeasures hchorded in
/-- A span has the times of a fragment. -/
lemma exists_fragment {s : Span} (hs : s ∈ Span.collect mode (fragments.map (measured unit))) :
    ∃ f ∈ fragments, s.isRest = f.isRest ∧ s.start * unit = f.offset ∧ s.stop * unit = f.stop := by
  obtain ⟨f', hf', hmatches⟩ := (collected_measured hchorded).of_mem s hs
  obtain ⟨f, hf, rfl⟩ := List.mem_map.mp hf'
  exact ⟨f, hf, hmatches.isRest_eq, hmatches.times hmeasures hf⟩

include hmeasures hchorded in
/-- A fragment is in a span of its times. -/
lemma exists_span {f : Fragment Rat} (hf : f ∈ fragments) :
    ∃ s ∈ Span.collect mode (fragments.map (measured unit)), s.isRest = f.isRest ∧
      (s.start * unit = f.offset ∧ s.stop * unit = f.stop) ∧
      ∀ p, f.pitch = some p → p ∈ s.pitches := by
  obtain ⟨s, hs, hmatches, hpitch⟩ :=
    (collected_measured hchorded).kept _ (List.mem_map_of_mem hf)
  exact ⟨s, hs, hmatches.isRest_eq, hmatches.times hmeasures hf, hpitch⟩

include hlayered hmeasures hchorded in
/-- The layout says of the bar what it says of any spans. -/
lemma laidOut_line : Span.LaidOut (Span.collect mode (fragments.map (measured unit)))
    (line mode unit fragments) := by
  have hinOrder := Span.inOrder_collect mode (units_pos_of_mem_measured hlayered hmeasures)
  refine hinOrder.laidOut_layOut fun s hs => ?_
  obtain ⟨f, hf, -, hstart, -⟩ := exists_fragment hmeasures hchorded hs
  have hbegin := (hlayered.within hf).1
  rw [← hstart] at hbegin
  exact_mod_cast nonneg_of_mul_nonneg_left hbegin hmeasures.unit_pos

include hmeasures hchorded in
/-- At an instant the spans sound or rest as the fragments do. -/
lemma at_collect_iff {silent : Bool} :
    Span.At (Span.collect mode (fragments.map (measured unit))) silent ⌊time / unit⌋ ↔
      ∃ f ∈ fragments, f.isRest = silent ∧ f.Has time := by
  constructor
  · rintro ⟨s, hs, hkind, hhas⟩
    obtain ⟨f, hf, hsame, hstart, hstop⟩ := exists_fragment hmeasures hchorded hs
    rw [Span.has_floor_iff hmeasures.unit_pos, hstart, hstop] at hhas
    exact ⟨f, hf, hsame.symm.trans hkind, hhas⟩
  · rintro ⟨f, hf, hkind, hhas⟩
    obtain ⟨s, hs, hsame, ⟨hstart, hstop⟩, -⟩ := exists_span hmeasures hchorded hf
    refine ⟨s, hs, hsame.trans hkind, ?_⟩
    rw [Span.has_floor_iff hmeasures.unit_pos, hstart, hstop]
    exact hhas

include hlayered hmeasures hchorded in
/-- There is silence on the line where every layer rests. -/
lemma at_line_rest_iff (hstart : 0 ≤ time) (hend : time < length) :
    Span.At (line mode unit fragments) true ⌊time / unit⌋ ↔
      ∀ f ∈ fragments, f.Has time → f.isRest = true := by
  have hlaid := laidOut_line hlayered hmeasures hchorded
  have hsounds : Span.At (Span.collect mode (fragments.map (measured unit))) false
      ⌊time / unit⌋ ↔ ∃ f ∈ fragments, f.isRest = false ∧ f.Has time :=
    at_collect_iff hmeasures hchorded
  constructor
  · intro hrest f hf hhas
    by_contra hnote
    refine hlaid.not_sounds hrest (hsounds.mpr ⟨f, hf, ?_, hhas⟩)
    simpa using hnote
  · intro hsilent
    obtain ⟨r, hr, hrest, hhas, hfree⟩ := hlayered.exists_rest hstart hend hsilent
    obtain ⟨s, hs, hsame, ⟨hbegin, hstop⟩, -⟩ := exists_span hmeasures hchorded hr
    refine (hlaid.silence _).mpr ⟨s, hs, hsame.trans hrest, ?_, fun n hn => ?_⟩
    · rw [Span.has_floor_iff hmeasures.unit_pos, hbegin, hstop]
      exact hhas
    · obtain ⟨hn, hnote⟩ := Span.mem_notes.mp hn
      obtain ⟨f, hf, hkind, hbegin', hstop'⟩ := exists_fragment hmeasures hchorded hn
      have hsounding : f.isRest = false := hkind.symm.trans hnote
      constructor
      · intro hsounds'
        rw [Span.has_floor_iff hmeasures.unit_pos, hbegin', hstop'] at hsounds'
        rw [hsilent f hf hsounds'] at hsounding
        cases hsounding
      · rintro ⟨hlater, hbegun⟩
        refine hfree f hf hsounding ⟨?_, ?_⟩
        · rw [← hbegin, ← hbegin']
          have := hmeasures.unit_pos
          gcongr
        · rw [← hbegin', ← le_div_iff₀ hmeasures.unit_pos]
          exact Int.le_floor.mp hbegun

include hlayered hmeasures hchorded in
/-- The line has a span where the bar has a fragment. -/
lemma has_line_iff : (∃ s ∈ line mode unit fragments, s.Has ⌊time / unit⌋) ↔
    ∃ f ∈ fragments, f.Has time := by
  have hlaid := laidOut_line hlayered hmeasures hchorded
  constructor
  · rintro ⟨s, hs, hhas⟩
    obtain ⟨t, ht, hhas⟩ := hlaid.exists_has hs hhas
    obtain ⟨f, hf, -, hhas'⟩ := (at_collect_iff hmeasures hchorded).mp ⟨t, ht, rfl, hhas⟩
    exact ⟨f, hf, hhas'⟩
  · rintro ⟨f, hf, hhas⟩
    obtain ⟨hstart, hend⟩ := hlayered.exists_has_iff.mp ⟨f, hf, hhas⟩
    have hat : ∃ silent, Span.At (line mode unit fragments) silent ⌊time / unit⌋ := by
      by_cases hsilent : ∀ g ∈ fragments, g.Has time → g.isRest = true
      · exact ⟨true, (at_line_rest_iff hlayered hmeasures hchorded hstart hend).mpr hsilent⟩
      · push Not at hsilent
        obtain ⟨g, hg, hsounding, hnote⟩ := hsilent
        refine ⟨false, (hlaid.sounds _).mpr ((at_collect_iff hmeasures hchorded).mpr ?_)⟩
        exact ⟨g, hg, by simpa using hnote, hsounding⟩
    obtain ⟨silent, s, hs, -, hhas'⟩ := hat
    exact ⟨s, hs, hhas'⟩

include hlayered hmeasures hchorded in
/-- The line fills the bar without gaps. -/
lemma tiles_line :
    Tiles Span.start Span.stop 0 (line mode unit fragments) (Units.count unit length) := by
  have hunit := hmeasures.unit_pos
  have hlaid := laidOut_line hlayered hmeasures hchorded
  have hend := hmeasures.length.count_mul
  have hfull := hmeasures.length.count_pos hunit hlayered.length_pos
  generalize Units.count unit length = full at hend hfull
  refine Tiles.of_covers hfull.le hlaid.lasting hlaid.ordered fun n => ?_
  -- The instant at which the `n`-th unit begins stands for the unit.
  have hfloor : ⌊(n * unit : Rat) / unit⌋ = n := Units.count_eq hunit n
  have hcovers := @has_line_iff mode unit length (n * unit) fragments hlayered hmeasures hchorded
  rw [hfloor, hlayered.exists_has_iff, ← hend, mul_lt_mul_iff_left₀ hunit,
    mul_nonneg_iff_of_pos_right hunit] at hcovers
  exact_mod_cast hcovers

include hlayered hmeasures hchorded in
/-- A note begins on the line where it was written. -/
lemma exists_note {f : Fragment Rat} (hf : f ∈ fragments) {p : Int} (hpitch : f.pitch = some p) :
    ∃ n ∈ line mode unit fragments, n.isRest = false ∧ n.start * unit = f.offset ∧
      p ∈ n.pitches := by
  have hlaid := laidOut_line hlayered hmeasures hchorded
  obtain ⟨s, hs, hkind, ⟨hstart, -⟩, hpitches⟩ := exists_span hmeasures hchorded hf
  have hnote : s ∈ Span.notes (Span.collect mode (fragments.map (measured unit))) := by
    refine Span.mem_notes.mpr ⟨hs, hkind.trans ?_⟩
    simp [Fragment.isRest, hpitch]
  obtain ⟨c, hc, hbegin, -⟩ := hlaid.gathers.kept s hnote
  obtain ⟨n, hn, hstart', hsame⟩ := Span.exists_mem_sustain hc 0
  rw [← hlaid.notes_eq] at hn
  obtain ⟨hn, hsounds⟩ := Span.mem_notes.mp hn
  refine ⟨n, hn, hsounds, ?_, ?_⟩
  · rw [hstart', hbegin, hstart]
  · rw [hsame, hlaid.gathers.mem_pitches c hc]
    exact ⟨s, hnote, hbegin.symm, hpitches p hpitch⟩

end Line

end Slot

/-! ## What the bar plays -/

/-- A pitch sounds in what is played. -/
def Played.Sounds (x : Played) (pitch : Int) : Prop :=
  ∃ pitches units, x.token = .note pitches units ∧ pitch ∈ pitches

/-- Silence is played at an instant. -/
def Played.Rests (x : Played) (time : Rat) : Prop :=
  x.token.isRest = true ∧ x.start ≤ time ∧ time < x.stop

/-- Pitches that sound from one time to another. -/
structure Tone where
  /-- The pitches. -/
  pitches : List Int
  /-- When they begin. -/
  start : Rat
  /-- When they stop. -/
  stop : Rat

/-- What sounds of what is played. -/
def Played.tone? (x : Played) : Option Tone :=
  match x.token with
  | .note pitches _ => some ⟨pitches, x.start, x.stop⟩
  | .rest _ => none

/-- What sounds of a fragment of a bar that begins at a time. -/
def Fragment.tone? (time : Rat) (f : Fragment Rat) : Option Tone :=
  f.pitch.map fun p => ⟨[p], time + f.offset, time + f.stop⟩

namespace Slot

/-- What a bar plays of the fragments that it was written with. -/
structure Renders (length : Rat) (fragments : List (Fragment Rat)) (s : Slot Rat) : Prop where
  /-- The tokens are as long as a bar. -/
  units_eq : s.units = s.target
  /-- They have a written form. -/
  writable : ∀ tok ∈ s.tokens, tok.IsWritable
  /-- They fill the bar. -/
  tiles : Tiles Played.start Played.stop (s.index * length) (s.played length)
    (s.index * length + length)
  /-- Every note begins on time. -/
  sounds : ∀ f ∈ fragments, ∀ p, f.pitch = some p →
    ∃ x ∈ s.played length, x.start = s.index * length + f.offset ∧ x.Sounds p
  /-- Silence is played where every layer rests. -/
  silent : ∀ time, 0 ≤ time → time < length →
    ((∃ x ∈ s.played length, x.Rests (s.index * length + time)) ↔
      ∀ f ∈ fragments, f.Has time → f.isRest = true)

/-- A slot whose fragments are measured by a unit and whose tokens are the spans of its line. -/
def rendered (mode : ChordMode) (unit length : Rat) (divisor : Int) (s : Slot Rat) : Slot Rat :=
  { s with
    fragments := s.fragments.map (measured unit)
    tokens := (line mode unit s.fragments).map fun x => x.token (x.units / divisor)
    unit := unit * divisor
    target := Units.count unit length / divisor }

section Rendered

variable {mode : ChordMode} {unit length : Rat} {divisor : Int} {s : Slot Rat}
  (hlayered : Layered length s.fragments) (hmeasures : Measures unit length s.fragments)
  (hchorded : Chorded mode s.fragments) (hdivisor : 0 < divisor)
  (hdvd : ∀ x ∈ line mode unit s.fragments, divisor ∣ x.units)

include hlayered hmeasures hchorded hdvd in
/-- The bar is as long as it should be. -/
lemma units_rendered : (s.rendered mode unit length divisor).units =
    (s.rendered mode unit length divisor).target := by
  have hsum := Span.sum_units (tiles_line hlayered hmeasures hchorded)
  rw [zero_add] at hsum
  rw [Slot.units, rendered, Span.units_map_token hdvd, hsum]

include hlayered hmeasures hdivisor hdvd in
/-- The tokens of the bar have a written form. -/
lemma isWritable_of_mem_rendered {tok : Token}
    (htok : tok ∈ (s.rendered mode unit length divisor).tokens) : tok.IsWritable := by
  obtain ⟨x, hx, rfl⟩ := List.mem_map.mp htok
  have hformed := allFormed_line hlayered hmeasures x hx
  apply Span.isWritable_token
  · exact Int.ediv_pos_of_pos_of_dvd hformed.units_pos hdivisor.le (hdvd x hx)
  · exact hformed.pitches_ne_nil

include hlayered hmeasures hchorded hdivisor hdvd

/-- The spans of the line are played. -/
lemma played_rendered : (s.rendered mode unit length divisor).played length =
    (line mode unit s.fragments).map (Span.play (s.index * length) unit divisor) := by
  have htiles := tiles_line hlayered hmeasures hchorded
  have hplayed := Span.playFrom_map htiles hdivisor.ne' hdvd (s.index * length) unit
  rw [Int.cast_zero, zero_mul, add_zero] at hplayed
  exact hplayed

/-- What is played fills the bar. -/
lemma tiles_played_rendered : Tiles Played.start Played.stop (s.index * length)
    ((s.rendered mode unit length divisor).played length) (s.index * length + length) := by
  have hunit := hmeasures.unit_pos
  have hend : (Units.count unit length : Rat) * unit = length := hmeasures.length.count_mul
  have hmono : StrictMono fun n : Int => s.index * length + n * unit := by
    intro m n hlt
    have hlt' : (m : Rat) < n := by exact_mod_cast hlt
    have hproduct : (m : Rat) * unit < n * unit := by gcongr
    linarith
  have hmapped := (tiles_line hlayered hmeasures hchorded).map hmono
    (fun x _ => (rfl : (Span.play (s.index * length) unit divisor x).start = _))
    fun x _ => (rfl : (Span.play (s.index * length) unit divisor x).stop = _)
  simp only [Int.cast_zero, zero_mul, add_zero, hend] at hmapped
  rw [played_rendered hlayered hmeasures hchorded hdivisor hdvd]
  exact hmapped

/-- A note is played from its offset on. -/
lemma exists_played_rendered {f : Fragment Rat} (hf : f ∈ s.fragments) {p : Int}
    (hpitch : f.pitch = some p) : ∃ x ∈ (s.rendered mode unit length divisor).played length,
      x.start = s.index * length + f.offset ∧ x.Sounds p := by
  obtain ⟨n, hn, hnote, hbegin, hmem⟩ := exists_note hlayered hmeasures hchorded hf hpitch
  rw [played_rendered hlayered hmeasures hchorded hdivisor hdvd]
  refine ⟨_, List.mem_map_of_mem hn, ?_, n.pitches, n.units / divisor, ?_, hmem⟩
  · rw [← hbegin]
    rfl
  · simp [Span.play, Span.token, hnote]

/-- Silence is played where all fragments rest. -/
lemma rests_rendered_iff {time : Rat} (hstart : 0 ≤ time) (hstop : time < length) :
    (∃ x ∈ (s.rendered mode unit length divisor).played length,
        x.Rests (s.index * length + time)) ↔
      ∀ f ∈ s.fragments, f.Has time → f.isRest = true := by
  have hrests (x : Span) : (Span.play (s.index * length) unit divisor x).Rests
      (s.index * length + time) ↔ x.isRest = true ∧ x.Has ⌊time / unit⌋ := by
    rw [Span.has_floor_iff hmeasures.unit_pos]
    simp [Played.Rests, Span.play]
  rw [← at_line_rest_iff hlayered hmeasures hchorded hstart hstop,
    played_rendered hlayered hmeasures hchorded hdivisor hdvd]
  constructor
  · rintro ⟨y, hy, hrest⟩
    obtain ⟨x, hx, rfl⟩ := List.mem_map.mp hy
    exact ⟨x, hx, (hrests x).mp hrest⟩
  · rintro ⟨x, hx, hrest⟩
    exact ⟨_, List.mem_map_of_mem hx, (hrests x).mpr hrest⟩

/-- The bar renders its fragments. -/
theorem renders_rendered :
    (s.rendered mode unit length divisor).Renders length s.fragments :=
  { units_eq := units_rendered hlayered hmeasures hchorded hdvd
    writable := fun _ htok =>
      isWritable_of_mem_rendered hlayered hmeasures hdivisor hdvd htok
    tiles := tiles_played_rendered hlayered hmeasures hchorded hdivisor hdvd
    sounds := fun _ hf _ hpitch =>
      exists_played_rendered hlayered hmeasures hchorded hdivisor hdvd hf hpitch
    silent := fun _ hstart hstop =>
      rests_rendered_iff hlayered hmeasures hchorded hdivisor hdvd hstart hstop }

end Rendered

/-- A bar written in layers on steps that are resolved is measured and rendered. -/
theorem exists_rendered {m : Measure Rat} {step : Rat} {mode : ChordMode} {s : Slot Rat}
    (hm : m.Resolves step) (hlayered : Layered m.length s.fragments)
    (hstep : ∀ f ∈ s.fragments, Units.IsWhole step f.duration)
    (hchorded : Chorded mode s.fragments) :
    ∃ measured unit, ∃ divisor : Int, Measures unit m.length s.fragments ∧ 0 < divisor ∧
      (∀ x ∈ line mode unit s.fragments, divisor ∣ x.units) ∧ s.quantize m = .ok measured ∧
        measured.group mode = .ok (s.rendered mode unit m.length divisor) := by
  obtain ⟨unit, hmeasures, hquantize⟩ := exists_quantize hm hlayered.ne_nil
    (fun f hf => ⟨hlayered.duration_pos hf, hstep f hf⟩) (hlayered.isWhole hstep).1
    fun _ hunit => hlayered.isWhole hunit
  have htarget : 0 < Units.count unit m.length :=
    hmeasures.length.count_pos hmeasures.unit_pos hm.length_pos
  set measured : Slot Rat := { s with
    fragments := s.fragments.map (measured unit), unit, target := Units.count unit m.length }
  obtain ⟨divisor, hdivisor, hdvd, hgroup⟩ := @exists_group mode measured _ rfl
    (tiles_line hlayered hmeasures hchorded) htarget
  exact ⟨measured, unit, divisor, hmeasures, hdivisor, hdvd, hquantize, hgroup⟩

end Slot

/-! ## A single layer -/

namespace Span

variable {unit time : Rat} {line : List Span}

/-- What sounds of a span. -/
def tone? (time unit : Rat) (s : Span) : Option Tone :=
  if s.isRest then none else some ⟨s.pitches, time + s.start * unit, time + s.stop * unit⟩

/-- What sounds when a span is played is what sounds of the span. -/
lemma tone?_play (time unit : Rat) (divisor : Int) (s : Span) :
    (s.play time unit divisor).tone? = s.tone? time unit := by
  unfold tone?
  split
  · rename_i hrest
    simp [play, token, hrest, Played.tone?]
  · rename_i hnote
    simp [play, token, hnote, Played.tone?]

/-- Only notes sound. -/
lemma filterMap_tone?_notes (time unit : Rat) (line : List Span) :
    (notes line).filterMap (tone? time unit) = line.filterMap (tone? time unit) := by
  induction line with
  | nil => rfl
  | cons s rest ih =>
    by_cases hrest : s.isRest = true
    · have hnone : tone? time unit s = none := if_pos hrest
      rw [notes_cons_of_isRest hrest, List.filterMap_cons_none hnone, ih]
    · have hnote : s.isRest = false := by simpa using hrest
      rw [notes_cons_of_note hnote, List.filterMap_cons, List.filterMap_cons, ih]

end Span

namespace Slot

section Layer

variable {unit length : Rat} {fragments : List (Fragment Rat)} (hlength : 0 < length)
  (htiles : Tiles Fragment.offset Fragment.stop 0 fragments length)
  (hmeasures : Measures unit length fragments)

include hmeasures in
/-- A fragment on its own is a span of its times. -/
lemma alone_times {f : Fragment Rat} (hf : f ∈ fragments) :
    (Span.alone (measured unit f)).start * unit = f.offset ∧
      (Span.alone (measured unit f)).stop * unit = f.stop :=
  Span.Matches.times ⟨rfl, rfl, rfl⟩ hmeasures hf

include hlength htiles hmeasures in
/-- The notes of a single layer are laid out as they are. -/
lemma notes_line_of_tiles : Span.notes (line .timing unit fragments) =
    Span.notes ((fragments.map (measured unit)).map Span.alone) := by
  have hlayered := Layered.of_tiles htiles hlength
  have hunit := hmeasures.unit_pos
  apply Span.notes_layOut
  · exact units_pos_of_mem_measured hlayered hmeasures
  · intro g hg
    obtain ⟨f, hf, rfl⟩ := List.mem_map.mp hg
    have hbegin := (hlayered.within hf).1
    rw [← (alone_times hmeasures hf).1] at hbegin
    exact_mod_cast nonneg_of_mul_nonneg_left hbegin hunit
  · refine List.pairwise_map.mpr (List.pairwise_map.mpr ?_)
    refine htiles.pairwise.imp_of_mem fun {f g} hf hg hle => ?_
    rw [← (alone_times hmeasures hf).2, ← (alone_times hmeasures hg).1] at hle
    exact_mod_cast le_of_mul_le_mul_right hle hunit

include hmeasures in
/-- What sounds of a fragment on its own. -/
lemma tone?_alone (time : Rat) {f : Fragment Rat} (hf : f ∈ fragments) :
    Span.tone? time unit (Span.alone (measured unit f)) = Fragment.tone? time f := by
  obtain ⟨hbegin, hend⟩ := alone_times hmeasures hf
  rw [Span.tone?, hbegin, hend]
  cases hpitch : f.pitch with
  | none => simp [Span.alone, Span.ofFragment, measured, Fragment.tone?, hpitch]
  | some p =>
    simp [Span.alone, Span.ofFragment, Span.addPitch, Span.insertPitch, measured, Fragment.tone?,
      hpitch]

end Layer

/-- Of a bar of a single layer exactly the notes sound. -/
theorem tones_rendered {unit length : Rat} {divisor : Int} {s : Slot Rat} (hlength : 0 < length)
    (htiles : Tiles Fragment.offset Fragment.stop 0 s.fragments length)
    (hmeasures : Measures unit length s.fragments) (hdivisor : 0 < divisor)
    (hdvd : ∀ x ∈ line .timing unit s.fragments, divisor ∣ x.units) :
    ((s.rendered .timing unit length divisor).played length).filterMap Played.tone? =
      s.fragments.filterMap (Fragment.tone? (s.index * length)) := by
  have hlayered := Layered.of_tiles htiles hlength
  have hchorded : Chorded .timing s.fragments := fun h => by cases h
  have hplay : Played.tone? ∘ Span.play (s.index * length) unit divisor =
      Span.tone? (s.index * length) unit := funext fun x => Span.tone?_play _ _ _ x
  have hline : (line .timing unit s.fragments).filterMap (Span.tone? (s.index * length) unit) =
      ((s.fragments.map (measured unit)).map Span.alone).filterMap
        (Span.tone? (s.index * length) unit) := by
    rw [← Span.filterMap_tone?_notes, notes_line_of_tiles hlength htiles hmeasures,
      Span.filterMap_tone?_notes]
  rw [played_rendered hlayered hmeasures hchorded hdivisor hdvd, List.filterMap_map, hplay, hline,
    List.map_map, List.filterMap_map]
  exact List.filterMap_congr fun f hf => tone?_alone hmeasures _ hf

end Slot

end PatternScore
