import PatternScore.Proofs.Bar.Coverage
import PatternScore.Proofs.Bar.Rendering

/-!
# Silence across complete staves

A bar of several staves, each of which fills the bar in units, is laid out without gaps, and there
is silence exactly where every staff rests: counted in units, such a bar is one written in layers,
of which a unit lasts one (`Fragment.inUnits`). Rests that touch are one. This holds of any line: a
rest is laid behind the others as a part of the one that it touches, and whatever cuts a rest, takes
it away or lets it disappear leaves a note in its place (`Span.isChain_parted_layOut`). On a line
without gaps all neighbours touch, so no two of them are rests (`Slot.group_staves`).

Units are counted without a bound, but the length of a unit is not: a bar of more units than its
numbers can count gets no tokens (`Slot.not_forall_single_rest`).
-/

namespace PatternScore

namespace Span

/-! ## Rests that touch -/

/-- Two spans, one behind the other, are not one silence in two parts. -/
def Parted (s t : Span) : Prop :=
  s.isRest = true → t.isRest = true → s.stop ≠ t.start

variable {s t last : Span} {line before : List Span}

/-- A note before a span is parted from it. -/
lemma Parted.of_note_left (h : s.isRest = false) (t : Span) : Parted s t := by
  intro hs
  simp [h] at hs

/-- So is a note behind one. -/
lemma Parted.of_note_right (s : Span) (h : t.isRest = false) : Parted s t := by
  intro _ ht
  simp [h] at ht

/-- On top of a line, of which the last span is given first, another span may stand that begins
there and is no other rest. -/
lemma isChain_replace (h : (last :: before).IsChain fun t s => Parted s t)
    (hrest : s.isRest = true → last.isRest = true) (hstart : s.start = last.start) :
    (s :: before).IsChain fun t s => Parted s t := by
  obtain ⟨hlast, hbefore⟩ := List.isChain_cons.mp h
  apply List.isChain_cons.mpr
  refine ⟨fun t ht htrest hs => ?_, hbefore⟩
  rw [hstart]
  exact hlast t ht htrest (hrest hs)

/-- A span is added, or the rest that it touches grows by it. -/
lemma isChain_append (h : line.IsChain fun t s => Parted s t) (s : Span) :
    (append s line).IsChain fun t s => Parted s t := by
  cases line with
  | nil => simp [append]
  | cons last before =>
    rw [append]
    split
    · exact isChain_replace h id rfl
    · rename_i hapart
      refine List.isChain_cons_cons.mpr ⟨fun hlast hs htouch => hapart ?_, h⟩
      simp [hs, hlast, htouch]

/-- A span is laid over the end of a line. -/
lemma isChain_lay (h : line.IsChain fun t s => Parted s t) (s : Span) :
    (lay s line).IsChain fun t s => Parted s t := by
  induction line with
  | nil => simp [lay]
  | cons last before ih =>
    unfold lay
    split_ifs
    · exact isChain_append h s
    · exact h
    · exact isChain_append h _
    · exact ih h.tail
    · exact isChain_replace h id rfl
    · apply isChain_append
      exact isChain_replace h id rfl

/-- Laying spans one after another never leaves two rests that touch. -/
lemma isChain_foldl_lay (spans : List Span) (h : line.IsChain fun t s => Parted s t) :
    (spans.foldl (fun line s => lay s line) line).IsChain fun t s => Parted s t := by
  induction spans generalizing line with
  | nil => exact h
  | cons s rest ih => exact ih (isChain_lay h s)

/-- A note parts what stands on either side of it. -/
lemma isChain_note_iff {behind : List Span} (h : s.isRest = false) :
    (before ++ s :: behind).IsChain Parted ↔ before.IsChain Parted ∧ behind.IsChain Parted := by
  rw [List.isChain_append, List.isChain_cons]
  constructor
  · rintro ⟨hbefore, ⟨-, hbehind⟩, -⟩
    exact ⟨hbefore, hbehind⟩
  · rintro ⟨hbefore, hbehind⟩
    refine ⟨hbefore, ⟨fun t _ => Parted.of_note_left h t, hbehind⟩, fun t _ u hu => ?_⟩
    obtain rfl : s = u := by simpa using hu
    exact Parted.of_note_right t h

/-- A span that is stretched stays a note or a rest. -/
lemma stretch_isRest (s : Span) (stop : Int) : (s.stretch stop).isRest = s.isRest := by
  unfold stretch
  split <;> rfl

/-- One more span is put on what is done. -/
lemma Puts.isChain {done done' more : List Span} (h : Puts s done done')
    (hline : (done.reverse ++ s :: more).IsChain Parted) :
    (done'.reverse ++ more).IsChain Parted := by
  have hnote {last : Span} (hlast : last.isRest = false) (stop : Int) :
      (last.stretch stop).isRest = false := (stretch_isRest last stop).trans hlast
  cases h with
  | first => simpa using hline
  | afterRest hlast => simpa using hline
  | afterNote hlast stop =>
    simp only [List.reverse_cons, List.append_assoc, List.cons_append, List.nil_append]
      at hline ⊢
    rw [isChain_note_iff (hnote hlast stop)]
    exact (isChain_note_iff hlast).mp hline
  | @trims last before hlast hs stop hlonger =>
    simp only [List.reverse_cons, List.append_assoc, List.cons_append, List.nil_append]
      at hline ⊢
    rw [isChain_note_iff (hnote hlast stop)]
    obtain ⟨hbefore, hbehind⟩ := (isChain_note_iff hlast).mp hline
    obtain ⟨hfirst, hmore⟩ := List.isChain_cons.mp hbehind
    refine ⟨hbefore, List.isChain_cons.mpr ⟨fun t ht hrest htrest => ?_, hmore⟩⟩
    -- A rest that loses its beginning ends as before.
    have hstop := hfirst t ht hs htrest
    simp only [Span.stop] at hstop ⊢
    omega
  | swallows hlast hs stop =>
    simp only [List.reverse_cons, List.append_assoc, List.cons_append, List.nil_append]
      at hline ⊢
    rw [isChain_note_iff (hnote hlast stop)]
    obtain ⟨hbefore, hbehind⟩ := (isChain_note_iff hlast).mp hline
    exact ⟨hbefore, hbehind.tail⟩

/-- Notes are held through the gaps of a line. -/
lemma isChain_hold {done more : List Span} (h : (done.reverse ++ more).IsChain Parted)
    (sounding : Int) : (hold done sounding more).reverse.IsChain Parted := by
  induction more generalizing done sounding with
  | nil =>
    rw [List.append_nil] at h
    unfold hold
    cases done with
    | nil => exact h
    | cons last before =>
      dsimp only
      split
      · exact h
      · rename_i hlast
        have hnote : last.isRest = false := by simpa using hlast
        rw [List.reverse_cons] at h ⊢
        rw [isChain_note_iff ((stretch_isRest last sounding).trans hnote)]
        exact (isChain_note_iff hnote).mp h
  | cons s more ih =>
    obtain ⟨done', sounding', heq, hputs⟩ := exists_hold_cons done sounding s more
    rw [heq]
    exact ih (hputs.isChain h) sounding'

/-- However spans are laid out, no rest begins where the rest before it ends. -/
theorem isChain_parted_layOut (spans : List Span) : (layOut spans).IsChain Parted := by
  apply isChain_hold
  apply List.isChain_reverse.mpr
  exact isChain_foldl_lay spans List.isChain_nil

/-- In a line without gaps the neighbour of a rest is a note. -/
lemma isChain_not_isRest {a b : Int} (htiles : Tiles start stop a line b)
    (hparted : line.IsChain Parted) :
    line.IsChain fun s t => ¬ (s.isRest = true ∧ t.isRest = true) := by
  induction line generalizing a with
  | nil => exact List.isChain_nil
  | cons s rest ih =>
    obtain ⟨-, -, hrest⟩ := htiles
    obtain ⟨hfirst, hparted⟩ := List.isChain_cons.mp hparted
    refine List.isChain_cons.mpr ⟨fun t ht => ?_, ih hrest hparted⟩
    rintro ⟨hs, htrest⟩
    cases rest with
    | nil => cases ht
    | cons u rest =>
      obtain rfl : u = t := by simpa using ht
      exact hfirst u ht hs htrest hrest.1.symm

end Span

/-- A fragment that is counted in units, as one of which a unit lasts one. -/
def Fragment.inUnits {τ : Type} (f : Fragment τ) : Fragment Rat where
  offset := f.offsetUnits
  duration := f.units
  pitch := f.pitch
  chord := f.chord

namespace Slot

/-! ## Complete staves -/

variable {τ : Type} {s : Slot τ} {staves : List (List (Fragment τ))} {time : Int}

/-- Notes and rests follow each other without gaps from the beginning of a bar to its end. -/
def IsStaff (target : Int) (staff : List (Fragment τ)) : Prop :=
  Tiles (·.offsetUnits) (fun f => f.offsetUnits + f.units) 0 staff target

/-- A staff rests in a unit of the bar. -/
def StaffRests (staff : List (Fragment τ)) (time : Int) : Prop :=
  ∃ r ∈ staff, r.pitch = none ∧ r.HasUnit time

/-- The fragments of a bar are those of some staves, in any order, and each staff is complete. -/
structure InStaves (staves : List (List (Fragment τ))) (s : Slot τ) : Prop where
  /-- There is a staff. -/
  ne_nil : staves ≠ []
  /-- The fragments are those of the staves. -/
  perm : s.fragments.Perm staves.flatten
  /-- Every staff fills the bar. -/
  isStaff : ∀ staff ∈ staves, IsStaff s.target staff

namespace InStaves

variable (h : s.InStaves staves)

include h

/-- A fragment belongs to a staff. -/
lemma mem_iff {f : Fragment τ} : f ∈ s.fragments ↔ ∃ staff ∈ staves, f ∈ staff := by
  rw [h.perm.mem_iff, List.mem_flatten]

/-- Every fragment lasts, and it lies in the bar. -/
lemma within {f : Fragment τ} (hf : f ∈ s.fragments) :
    0 ≤ f.offsetUnits ∧ 1 ≤ f.units ∧ f.offsetUnits + f.units ≤ s.target := by
  obtain ⟨staff, hstaff, hf⟩ := h.mem_iff.mp hf
  obtain ⟨hbegin, hlasts, hend⟩ := (h.isStaff staff hstaff).mem hf
  refine ⟨hbegin, ?_, hend⟩
  omega

/-- Every staff rests where all fragments do. -/
lemma forall_rests_iff : (∀ staff ∈ staves, StaffRests staff time) ↔
    (0 ≤ time ∧ time < s.target) ∧ ∀ f ∈ s.fragments, f.HasUnit time → f.pitch = none := by
  constructor
  · intro hrests
    constructor
    · obtain ⟨staff, hstaff⟩ := List.exists_mem_of_ne_nil staves h.ne_nil
      obtain ⟨r, hr, -, hbegin, hend⟩ := hrests staff hstaff
      obtain ⟨hfirst, -, hlast⟩ := h.within (h.mem_iff.mpr ⟨staff, hstaff, hr⟩)
      omega
    · intro f hf hhas
      obtain ⟨staff, hstaff, hf⟩ := h.mem_iff.mp hf
      obtain ⟨r, hr, hrest, hhas'⟩ := hrests staff hstaff
      rw [(h.isStaff staff hstaff).eq_of_mem hf hr hhas hhas']
      exact hrest
  · rintro ⟨⟨hstart, hstop⟩, hsilent⟩ staff hstaff
    obtain ⟨f, hf, hhas⟩ := (h.isStaff staff hstaff).exists_mem hstart hstop
    exact ⟨f, hf, hsilent f (h.mem_iff.mpr ⟨staff, hstaff, hf⟩) hhas, hhas⟩

/-- In units, the bar is written in layers. -/
lemma layered_inUnits (hne : s.fragments ≠ []) :
    Layered s.target (s.fragments.map Fragment.inUnits) := by
  refine ⟨by simpa using hne, List.forall_mem_map.mpr fun f hf => ?_⟩
  obtain ⟨staff, hstaff, hf⟩ := h.mem_iff.mp hf
  refine ⟨staff.map Fragment.inUnits, List.mem_map_of_mem hf,
    List.forall_mem_map.mpr fun g hg => List.mem_map_of_mem (h.mem_iff.mpr ⟨staff, hstaff, hg⟩), ?_⟩
  have htiles : Tiles Fragment.offset Fragment.stop ((0 : Int) : Rat)
      (staff.map Fragment.inUnits) s.target :=
    (h.isStaff staff hstaff).map Int.cast_strictMono (fun _ _ => rfl)
      fun g _ => (Int.cast_add g.offsetUnits g.units).symm
  simpa using htiles

omit h in
/-- In units, everything is whole. -/
lemma measures_inUnits (s : Slot τ) :
    Measures 1 s.target (s.fragments.map Fragment.inUnits) where
  unit_pos := one_pos
  duration := List.forall_mem_map.mpr fun f _ => ⟨f.units, (mul_one _).symm⟩
  offset := List.forall_mem_map.mpr fun f _ => ⟨f.offsetUnits, (mul_one _).symm⟩
  length := ⟨s.target, (mul_one _).symm⟩

omit h in
/-- In units, the bar is laid out as it is. -/
lemma line_inUnits (mode : ChordMode) (s : Slot τ) :
    line mode 1 (s.fragments.map Fragment.inUnits) = s.laid mode := by
  have hcount (n : Int) : Units.count 1 n = n := by
    simpa using Units.count_eq one_pos n
  rw [line, laid, List.map_map]
  refine congrArg Span.layOut (Span.collect_map (g := fun f : Fragment τ => measured 1 f.inUnits)
    ?_ ?_ (fun _ => rfl) (fun _ => rfl) s.fragments)
  · exact fun f => hcount f.offsetUnits
  · exact fun f => hcount f.units

omit h in
/-- By their timing, fragments are always chorded. -/
lemma chorded_inUnits (s : Slot τ) : Chorded .timing (s.fragments.map Fragment.inUnits) := by
  intro hmode
  cases hmode

/-- A bar without fragments has no length. -/
lemma target_eq_zero (hnil : s.fragments = []) : s.target = 0 := by
  obtain ⟨staff, hstaff⟩ := List.exists_mem_of_ne_nil staves h.ne_nil
  have hempty : staff = [] := by
    refine List.eq_nil_iff_forall_not_mem.mpr fun f hf => ?_
    have hmem := h.mem_iff.mpr ⟨staff, hstaff, hf⟩
    rw [hnil] at hmem
    cases hmem
  have htiles := h.isStaff staff hstaff
  rw [hempty] at htiles
  exact Eq.symm htiles

/-- A bar with fragments has a length. -/
lemma target_pos (hne : s.fragments ≠ []) : 0 < s.target := by
  obtain ⟨f, hf⟩ := List.exists_mem_of_ne_nil _ hne
  obtain ⟨hfirst, hlasts, hlast⟩ := h.within hf
  omega

/-- The line fills the bar. -/
lemma tiles_laid : Tiles Span.start Span.stop 0 (s.laid .timing) s.target := by
  by_cases hne : s.fragments = []
  · rw [laid_of_nil hne, h.target_eq_zero hne]
    exact rfl
  · have htiles := tiles_line (h.layered_inUnits hne) (measures_inUnits s) (chorded_inUnits s)
    have htarget : Units.count 1 (s.target : Rat) = s.target := by
      simpa using Units.count_eq one_pos s.target
    rwa [line_inUnits, htarget] at htiles

/-- There is silence on the line where every staff rests. -/
lemma at_laid_rest_iff :
    Span.At (s.laid .timing) true time ↔ ∀ staff ∈ staves, StaffRests staff time := by
  have hwithin : Span.At (s.laid .timing) true time → 0 ≤ time ∧ time < s.target := by
    rintro ⟨x, hx, -, hbegin, hend⟩
    obtain ⟨hfirst, -, hlast⟩ := h.tiles_laid.mem hx
    exact ⟨hfirst.trans hbegin, hend.trans_le hlast⟩
  have hinside : 0 ≤ time → time < s.target → (Span.At (s.laid .timing) true time ↔
      ∀ f ∈ s.fragments, f.HasUnit time → f.pitch = none) := by
    intro hstart hstop
    have hne : s.fragments ≠ [] := by
      intro hnil
      rw [h.target_eq_zero hnil] at hstop
      omega
    have hbegin : (0 : Rat) ≤ time := by exact_mod_cast hstart
    have hend : (time : Rat) < s.target := by exact_mod_cast hstop
    have hline := at_line_rest_iff (h.layered_inUnits hne) (measures_inUnits s)
      (chorded_inUnits s) hbegin hend
    rw [line_inUnits, div_one, Int.floor_intCast, List.forall_mem_map] at hline
    rw [hline]
    refine forall₂_congr fun f hf => imp_congr ?_ Option.isNone_iff_eq_none
    simp only [Fragment.Has, Fragment.HasUnit, Fragment.stop, Fragment.inUnits]
    norm_cast
  rw [h.forall_rests_iff]
  constructor
  · intro hrest
    obtain ⟨hstart, hstop⟩ := hwithin hrest
    exact ⟨⟨hstart, hstop⟩, (hinside hstart hstop).mp hrest⟩
  · rintro ⟨⟨hstart, hstop⟩, hsilent⟩
    exact (hinside hstart hstop).mpr hsilent

/-- A bar in which everything rests is laid out as a single rest. -/
lemma exists_laid_eq_singleton (hne : s.fragments ≠ [])
    (hsilent : ∀ f ∈ s.fragments, f.pitch = none) :
    ∃ x, s.laid .timing = [x] ∧ x.isRest = true := by
  have htiles := h.tiles_laid
  have hrests : ∀ x ∈ s.laid .timing, x.isRest = true := by
    intro x hx
    obtain ⟨hbegin, hlasts, hend⟩ := htiles.mem hx
    have hinside : 0 ≤ x.start ∧ x.start < s.target := ⟨hbegin, hlasts.trans_le hend⟩
    have hall := h.forall_rests_iff.mpr ⟨hinside, fun f hf _ => hsilent f hf⟩
    obtain ⟨y, hy, hrest, hhas⟩ := h.at_laid_rest_iff.mpr hall
    rwa [htiles.eq_of_mem hx hy ⟨le_rfl, hlasts⟩ hhas]
  have hchain := Span.isChain_not_isRest htiles (Span.isChain_parted_layOut _)
  have hlaid : s.laid .timing ≠ [] := Span.layOut_ne_nil (Span.collect_ne_nil _ hne)
  cases hline : s.laid .timing with
  | nil => exact absurd hline hlaid
  | cons x rest =>
    rw [hline] at hrests hchain
    cases rest with
    | nil => exact ⟨x, rfl, hrests x List.mem_cons_self⟩
    | cons y rest =>
      have hx := hrests x List.mem_cons_self
      have hy := hrests y (List.mem_cons_of_mem _ List.mem_cons_self)
      exact absurd ⟨hx, hy⟩ (List.isChain_cons_cons.mp hchain).1

/-! ## Tokens -/

/-- The spans of the line, shortened by what divides their lengths and played in units of the bar,
are silent where every staff rests. -/
lemma exists_rests_iff {divisor : Int} (hpos : 0 < divisor)
    (hdvd : ∀ x ∈ s.laid .timing, divisor ∣ x.units) :
    (∃ x ∈ Bar.playFrom divisor 0 ((s.laid .timing).map fun x => x.token (x.units / divisor)),
      x.Rests time) ↔ ∀ staff ∈ staves, StaffRests staff time := by
  have hplayed := Span.playFrom_map h.tiles_laid hpos.ne' hdvd 0 1
  rw [one_mul, Int.cast_zero, zero_mul, add_zero] at hplayed
  have hrests (x : Span) : (x.play 0 1 divisor).Rests time ↔ x.isRest = true ∧ x.Has time := by
    simp [Played.Rests, Span.play, Span.Has]
  rw [hplayed, ← h.at_laid_rest_iff]
  constructor
  · rintro ⟨y, hy, hrest⟩
    obtain ⟨x, hx, rfl⟩ := List.mem_map.mp hy
    exact ⟨x, hx, (hrests x).mp hrest⟩
  · rintro ⟨x, hx, hrest⟩
    exact ⟨_, List.mem_map_of_mem hx, (hrests x).mpr hrest⟩

/-- Together they are as long as the bar. -/
lemma units_mul_eq {divisor : Int} (hdvd : ∀ x ∈ s.laid .timing, divisor ∣ x.units) :
    Bar.units ((s.laid .timing).map fun x => x.token (x.units / divisor)) * divisor =
      s.target := by
  have hsum : divisor ∣ ((s.laid .timing).map (·.units)).sum :=
    List.dvd_sum (List.forall_mem_map.mpr hdvd)
  rw [Span.units_map_token hdvd, Int.ediv_mul_cancel hsum]
  simpa using Span.sum_units h.tiles_laid

/-- No two rests of them are neighbours. -/
lemma isChain_tokens (divisor : Int) :
    ((s.laid .timing).map fun x => x.token (x.units / divisor)).IsChain
      fun t u => ¬ (t.isRest = true ∧ u.isRest = true) := by
  have hchain := Span.isChain_not_isRest h.tiles_laid (Span.isChain_parted_layOut _)
  rw [List.isChain_map]
  simpa using hchain

/-- Silence is a single rest of a single unit. -/
lemma tokens_of_silent (hne : s.fragments ≠ []) (hsilent : ∀ f ∈ s.fragments, f.pitch = none) :
    (s.laid .timing).map (fun x => x.token (x.units / s.divisor .timing)) = [.rest 1] := by
  obtain ⟨x, hlaid, hrest⟩ := h.exists_laid_eq_singleton hne hsilent
  have hx : x ∈ s.laid .timing := by
    rw [hlaid]
    exact List.mem_singleton_self x
  have hlasts := (h.tiles_laid.mem hx).2.1
  have hunits : x.units ≠ 0 := by
    unfold Span.stop at hlasts
    omega
  have hdivisor : s.divisor .timing = x.units := by
    rw [divisor, hlaid]
    rfl
  rw [hdivisor, hlaid, List.map_singleton, Int.ediv_self hunits, Span.token, if_pos hrest]

end InStaves

/-- A bar of complete staves is laid out in units of several of those of its fragments, and nothing
fails if its full length is in the range of the numbers. The tokens fill the bar, silence is where
every staff rests, and no rest follows another; a bar in which everything rests is a single rest of
one unit. -/
theorem group_staves [Scalar τ] (h : s.InStaves staves) :
    ∃ (divisor : Int) (tokens : Bar), 0 < divisor ∧
      s.group .timing = (s.coarsen divisor).map (fun s' => { s' with tokens }) ∧
      (Scalar.InRange τ s.target → ∃ s', s.group .timing = .ok s') ∧
      tokens.units * divisor = s.target ∧
      (∀ time : Int, (∃ x ∈ tokens.playFrom divisor 0, x.Rests time) ↔
        ∀ staff ∈ staves, StaffRests staff time) ∧
      (tokens.IsChain fun t u => ¬ (t.isRest = true ∧ u.isRest = true)) ∧
      (s.fragments ≠ [] → (∀ f ∈ s.fragments, f.pitch = none) → tokens = [.rest 1]) := by
  have hunits : ∀ f ∈ s.fragments, 1 ≤ f.units := fun f hf => (h.within hf).2.1
  by_cases hne : s.fragments = []
  · obtain ⟨divisor, hpos, hdvd, hgroup⟩ := exists_group_eq_coarsen hunits .timing
    exact ⟨divisor, _, hpos, hgroup, fun _ => ⟨_, group_of_nil hne .timing⟩, h.units_mul_eq hdvd,
      fun _ => h.exists_rests_iff hpos hdvd, h.isChain_tokens divisor,
      fun hsome => absurd hne hsome⟩
  · have hlasting := Counted.lasting ⟨hne, hunits⟩ .timing
    have hpos := hlasting.divisor_pos
    have hdvd : ∀ x ∈ s.laid .timing, s.divisor .timing ∣ x.units := fun _ hx => divisor_dvd hx
    have hgroup := hlasting.group_eq_coarsen
    have htotal := h.units_mul_eq hdvd
    refine ⟨s.divisor .timing, _, hpos, hgroup, fun hrange => ?_, htotal,
      fun _ => h.exists_rests_iff hpos hdvd, h.isChain_tokens _, h.tokens_of_silent⟩
    have hwhole : s.divisor .timing ∣ s.target := htotal ▸ dvd_mul_left _ _
    obtain ⟨s', hcoarsen⟩ := exists_coarsen hrange (h.target_pos hne) hpos hwhole
    rw [hgroup, hcoarsen]
    exact ⟨_, rfl⟩

/-- A note in the middle of the bar, between rests. -/
def upperStaff : List (Fragment Rat) := [
  { offset := 0, duration := 4, units := 4 },
  { offset := 4, duration := 4, pitch := some 0, units := 4, offsetUnits := 4 },
  { offset := 8, duration := 4, units := 4, offsetUnits := 8 }]

/-- A note at the beginning of the bar, and two rests. -/
def lowerStaff : List (Fragment Rat) := [
  { offset := 0, duration := 2, pitch := some 7, units := 2 },
  { offset := 2, duration := 4, units := 4, offsetUnits := 2 },
  { offset := 6, duration := 6, units := 6, offsetUnits := 6 }]

/-- A bar of two staves. -/
def twoStaves : Slot Rat where
  index := 0
  fragments := upperStaff ++ lowerStaff
  unit := 1
  target := 12

/-- Of the rests the tokens keep what both staves share. -/
theorem group_staves_two :
    twoStaves.InStaves [upperStaff, lowerStaff] ∧ Scalar.InRange Rat twoStaves.target ∧
    (∃ (divisor : Int) (tokens : Bar), 0 < divisor ∧
      twoStaves.group .timing = (twoStaves.coarsen divisor).map (fun s' => { s' with tokens }) ∧
      (Scalar.InRange Rat twoStaves.target → ∃ s', twoStaves.group .timing = .ok s') ∧
      tokens.units * divisor = twoStaves.target ∧
      (∀ time : Int, (∃ x ∈ tokens.playFrom divisor 0, x.Rests time) ↔
        ∀ staff ∈ [upperStaff, lowerStaff], StaffRests staff time) ∧
      (tokens.IsChain fun t u => ¬ (t.isRest = true ∧ u.isRest = true)) ∧
      (twoStaves.fragments ≠ [] → (∀ f ∈ twoStaves.fragments, f.pitch = none) →
        tokens = [.rest 1])) ∧
    twoStaves.group .timing = .ok { twoStaves with
      tokens := [.note [7] 1, .rest 1, .note [0] 2, .rest 2], unit := 2, target := 6 } := by
  have hstaves : twoStaves.InStaves [upperStaff, lowerStaff] := by
    refine ⟨by simp, by simp [twoStaves], ?_⟩
    simp [IsStaff, upperStaff, lowerStaff, twoStaves, Tiles]
  have hlaid : twoStaves.laid .timing = [⟨0, 2, [7], false, 2⟩, ⟨2, 2, [], true, 4⟩,
      ⟨4, 4, [0], false, 8⟩, ⟨8, 4, [], true, 12⟩] := by
    cbv
  have hdivisor : twoStaves.divisor .timing = 2 := by
    rw [divisor, hlaid]
    rfl
  have hlasting : twoStaves.Lasting .timing :=
    Counted.lasting ⟨by simp [twoStaves, upperStaff], by decide⟩ _
  refine ⟨hstaves, Scalar.inRange_rat _, group_staves hstaves, ?_⟩
  rw [hlasting.group_eq, hlaid, hdivisor]
  norm_num [twoStaves, Span.token]

/-- A number of units that is beyond the range of the binary floating-point numbers. -/
def tooMany : Int :=
  2 ^ 1024

/-- A rest of so many units. -/
def endlessRest : Slot Float where
  index := 0
  fragments := [{ offset := 0, duration := 1000, units := tooMany }]
  unit := 0
  target := tooMany

/-- A bar in which everything rests does not become a rest if its units are too many to be counted
by the numbers that time is measured in. -/
theorem not_forall_single_rest :
    ¬ ∀ (s : Slot Float) (staves : List (List (Fragment Float))), s.InStaves staves →
      s.fragments ≠ [] → (∀ f ∈ s.fragments, f.pitch = none) →
        ∃ s', s.group .timing = .ok s' ∧ s'.tokens = [.rest 1] := by
  intro hall
  have hstaves : endlessRest.InStaves [endlessRest.fragments] := by
    have hpos : 0 < tooMany := by decide +kernel
    refine ⟨by simp, by simp, ?_⟩
    simpa [IsStaff, endlessRest, Tiles] using hpos
  have hne : endlessRest.fragments ≠ [] := by simp [endlessRest]
  have hsilent : ∀ f ∈ endlessRest.fragments, f.pitch = none := by simp [endlessRest]
  have hdivisor : endlessRest.divisor .timing = tooMany := by
    have htotal := hstaves.units_mul_eq fun _ hx => divisor_dvd hx
    rwa [hstaves.tokens_of_silent hne hsilent, Bar.units_eq_sum, List.map_singleton,
      List.sum_singleton, Token.units, one_mul] at htotal
  have hcoarsen : endlessRest.coarsen tooMany = .error ⟨.integerTooLarge, endlessRest⟩ := by
    decide +kernel
  have hlasting : endlessRest.Lasting .timing :=
    Counted.lasting ⟨hne, fun f hf => (hstaves.within hf).2.1⟩ _
  obtain ⟨s', hgroup, -⟩ := hall endlessRest _ hstaves hne hsilent
  rw [hlasting.group_eq_coarsen, hdivisor, hcoarsen] at hgroup
  cases hgroup

end Slot

end PatternScore
