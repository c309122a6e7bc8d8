import Mathlib
import PatternScore.Conversion.Run
import PatternScore.Proofs.Conversion.Tokenizing
import PatternScore.Proofs.Conversion.Trimming

/-!
# Leading silence does not change a program

Delaying all events of a document by whole bars gives every voice as many silent bars before its
own, which are the ones that it had with other numbers (`Slot.Leads`). Trimming takes away just the
bars that all voices begin with and moves the numbers back, so that the rest of the conversion gets
what it got without the delay (`Conversion.ofDocument_delay`).
-/

namespace PatternScore

/-! ## Delayed events -/

namespace Event

/-- A delay changes neither what can be heard nor its order. -/
lemma audible_delay (time epsilon : Rat) (events : List (Event Rat)) :
    audible epsilon (events.map (delay time)) = (audible epsilon events).map (delay time) := by
  have hprecedes : ∀ e f : Event Rat, e.precedes f = (e.delay time).precedes (f.delay time) := by
    intro e f
    have hlt : f.onset < e.onset ↔ (f.delay time).onset < (e.delay time).onset :=
      (add_lt_add_iff_right time).symm
    exact congrArg not (decide_eq_decide.mpr hlt)
  unfold audible
  rw [List.filter_map, List.map_mergeSort fun e _ f _ => hprecedes e f]
  rfl

/-- What is heard is among the events and takes time. -/
lemma lasts_of_mem_audible {epsilon : Rat} {events : List (Event Rat)} {e : Event Rat}
    (h : e ∈ audible epsilon events) : e ∈ events ∧ 0 < e.duration := by
  obtain ⟨hmem, haudible⟩ := List.mem_filter.mp (List.mem_mergeSort.mp h)
  have hlasts : ¬ e.duration ≤ Scalar.zero := by
    simpa using (Bool.and_eq_true_iff.mp haudible).1
  exact ⟨hmem, not_le.mp hlasts⟩

end Event

/-! ## Silent bars before a voice -/

namespace Slot

/-- The bars of a voice with `k` silent bars before them. -/
def Leads (k : Nat) (slots slots' : List (Slot Rat)) : Prop :=
  ∃ rests : List (Slot Rat), rests.length = k ∧ (∀ s ∈ rests, s.isSilent = true) ∧
    slots' = rests ++ slots.map (renumber k)

/-- Silent bars do not take any away. -/
lemma Leads.ne_nil {k : Nat} {slots slots' : List (Slot Rat)} (h : Leads k slots slots')
    (hne : slots ≠ []) : slots' ≠ [] := by
  obtain ⟨rests, -, -, rfl⟩ := h
  simp [hne]

end Slot

/-! ## Voices that are built later -/

/-- A grid on which nothing is moved but by whole bars: without an upbeat and without repeat marks,
silence is filled, and the slack is shorter than a bar. -/
structure VoicePlan.Plain (p : VoicePlan Rat) (length tolerance quantizeTolerance : Rat) :
    Prop where
  /-- The length of a bar. -/
  barLength_eq : p.header.barLength = .ok length
  /-- The slack in comparisons with bar lines. -/
  tolerance_eq : p.settings.tolerance = .value tolerance
  /-- It is not negative. -/
  tolerance_nonneg : 0 ≤ tolerance
  /-- It is shorter than a bar. -/
  tolerance_lt : tolerance < length
  /-- The error that is accepted in units. -/
  quantizeTolerance_eq : p.settings.quantizeTolerance = .value quantizeTolerance
  /-- Silence is filled. -/
  fillGaps_eq : p.policy.fillGaps = true
  /-- There are no repeat marks. -/
  markers_eq : p.markers = []
  /-- There is no upbeat. -/
  pickup_eq : p.pickup = 0

/-- What becomes of a voice whose events are delayed by `k` bars: it fails as before, it has no bars
as before, or it has `k` silent bars before its own. -/
inductive BuiltLater (k : Nat) :
    Except Failure (List (Slot Rat)) → Except Failure (List (Slot Rat)) → Prop
  /-- The voice fails. -/
  | failed (f : Failure) : BuiltLater k (.error f) (.error f)
  /-- Nothing is heard. -/
  | nothing : BuiltLater k (.ok []) (.ok [])
  /-- The voice has bars. -/
  | bars {slots slots' : List (Slot Rat)} (hne : slots ≠ []) (h : Slot.Leads k slots slots') :
      BuiltLater k (.ok slots) (.ok slots')

namespace VoicePlan.Plain

variable {p : VoicePlan Rat} {length tolerance quantizeTolerance : Rat} {k : Nat}

/-- The grid of such a plan is plain. -/
lemma plain_grid (h : p.Plain length tolerance quantizeTolerance) :
    (p.grid length tolerance).Plain where
  length_pos := (Header.pos_of_barLength h.barLength_eq).2
  tolerance_nonneg := h.tolerance_nonneg
  tolerance_lt := h.tolerance_lt
  fillGaps_eq := h.fillGaps_eq
  markers_eq := h.markers_eq
  pickup_le := h.pickup_eq.le

/-- Cut bars are turned into tokens as before, with silent bars before them. -/
lemma builtLater_mapM (h : p.Plain length tolerance quantizeTolerance) (hk : 0 < k)
    {slots : List (Slot Rat)} (hne : slots ≠ []) (hfragments : ∀ s ∈ slots, s.fragments ≠ []) :
    BuiltLater k (slots.mapM (p.tokenize length))
      (((List.range k).map (p.grid length tolerance).restBar ++
        slots.map (Slot.renumber k)).mapM (p.tokenize length)) := by
  obtain ⟨hnumerator, hlength⟩ := Header.pos_of_barLength h.barLength_eq
  obtain hall | ⟨f, hnone⟩ :=
    tokenize_all_or_none hlength hnumerator.ne' h.quantizeTolerance_eq
  · choose tokenized htokenized using hall
    have hrenumber : ∀ s : Slot Rat, tokenized (s.renumber k) = (tokenized s).renumber k := by
      intro s
      have heq := p.tokenize_renumber length k s
      rw [htokenized, htokenized] at heq
      exact Except.ok.inj heq
    rw [mapM_eq_ok fun s _ => htokenized s, mapM_eq_ok fun s _ => htokenized s]
    refine .bars (mt List.map_eq_nil_iff.mp hne)
      ⟨((List.range k).map (p.grid length tolerance).restBar).map tokenized, by simp, ?_, ?_⟩
    · intro s hs
      obtain ⟨rest, hrest, rfl⟩ := List.mem_map.mp hs
      obtain ⟨bar, -, rfl⟩ := List.mem_map.mp hrest
      exact isSilent_of_tokenize (htokenized _) rfl rfl
    · rw [List.map_append]
      congr 1
      rw [List.map_map, List.map_map]
      exact List.map_congr_left fun s _ => hrenumber s
  · obtain ⟨first, rest, rfl⟩ := List.exists_cons_of_ne_nil hne
    obtain ⟨before, rfl⟩ := Nat.exists_eq_succ_of_ne_zero hk.ne'
    rw [List.range_succ_eq_map, List.map_cons, List.cons_append, List.mapM_cons, List.mapM_cons,
      hnone first (hfragments first List.mem_cons_self),
      hnone ((p.grid length tolerance).restBar 0) (List.cons_ne_nil _ _)]
    exact .failed f

/-- A voice is cut on its grid, and its bars are turned into tokens. -/
lemma build_eq (h : p.Plain length tolerance quantizeTolerance) (events : List (Event Rat)) :
    p.build events = (do
      let epsilon ← p.restEpsilon events
      ((p.grid length tolerance).cut (Event.audible epsilon events)).mapM (p.tokenize length)) := by
  have htolerance : p.tolerance length = .ok tolerance := by
    rw [VoicePlan.tolerance, h.tolerance_eq]
    rfl
  unfold build
  rw [h.barLength_eq]
  cases p.restEpsilon events with
  | error f => rfl
  | ok epsilon =>
    simp only [bind, Except.bind, htolerance, Grid.segment_eq h.plain_grid.toUsable,
      Except.mapError]

/-- A voice whose events are delayed by whole bars is built as before, with silent bars before its
own. -/
lemma builtLater (h : p.Plain length tolerance quantizeTolerance) (hk : 0 < k)
    {events : List (Event Rat)} (honset : ∀ e ∈ events, 0 ≤ e.onset) :
    BuiltLater k (p.build events) (p.build (events.map (Event.delay (k * length)))) := by
  have hepsilon : p.restEpsilon (events.map (Event.delay (k * length))) =
      p.restEpsilon events := by
    unfold restEpsilon
    rw [List.any_map]
    rfl
  rw [h.build_eq, h.build_eq, hepsilon]
  cases p.restEpsilon events with
  | error f => exact .failed f
  | ok epsilon =>
    simp only [bind, Except.bind, Event.audible_delay]
    have hgrid := h.plain_grid
    have hlasts : ∀ e ∈ Event.audible epsilon events, 0 ≤ e.onset ∧ 0 < e.duration :=
      fun e he => (Event.lasts_of_mem_audible he).imp_left (honset e)
    by_cases hnone : Event.audible epsilon events = []
    · rw [hnone, List.map_nil, hgrid.cut_nil]
      exact .nothing
    · have hcut := hgrid.cut_delay hk hnone hlasts
      have hfilled := Grid.filled_cut (Grid.makes_true (p.grid length tolerance))
        (Event.audible epsilon events)
      have hlength : (p.grid length tolerance).length = length := rfl
      rw [hlength] at hcut
      rw [hcut]
      exact h.builtLater_mapM hk (hgrid.cut_ne_nil hnone hlasts) hfilled.fragments_ne_nil

end VoicePlan.Plain

/-! ## Trimming -/

namespace Slot

variable {k : Nat} {slots slots' : List (Slot Rat)}

/-- Silent bars at the end are taken away behind the last bar that is not silent. -/
lemma dropTrailing_append (before : List (Slot Rat)) {behind : List (Slot Rat)}
    (h : ∃ s ∈ behind, s.isSilent = false) :
    ((before ++ behind).reverse.dropWhile isSilent).reverse =
      before ++ (behind.reverse.dropWhile isSilent).reverse := by
  have hnonempty : ¬ (behind.reverse.dropWhile isSilent).isEmpty := by
    rw [List.isEmpty_iff, List.dropWhile_eq_nil_iff]
    obtain ⟨s, hs, hsound⟩ := h
    intro hall
    rw [hall s (List.mem_reverse.mpr hs)] at hsound
    cases hsound
  rw [List.reverse_append, List.dropWhile_append, if_neg hnonempty, List.reverse_append,
    List.reverse_reverse]

/-- Of a voice that is not silent, the first bars stay up to the last that is not silent. -/
lemma trimEnd_eq (h : ∃ s ∈ slots, s.isSilent = false) :
    trimEnd slots = (slots.reverse.dropWhile isSilent).reverse := by
  cases slots with
  | nil =>
    obtain ⟨s, hs, -⟩ := h
    cases hs
  | cons first rest =>
    by_cases hrest : ∃ s ∈ rest, s.isSilent = false
    · exact (dropTrailing_append [first] hrest).symm
    · have hsilent : ∀ s ∈ rest.reverse, s.isSilent = true := by
        intro s hs
        by_contra hs'
        exact hrest ⟨s, List.mem_reverse.mp hs, by simpa using hs'⟩
      have hfirst : first.isSilent = false := by
        obtain ⟨s, hs, hsound⟩ := h
        rcases List.mem_cons.mp hs with rfl | hs
        · exact hsound
        · exact absurd ⟨s, hs, hsound⟩ hrest
      rw [trimEnd, List.reverse_cons, List.dropWhile_append_of_pos hsilent,
        List.dropWhile_eq_nil_iff.mpr hsilent]
      simp [hfirst]

/-- Silent bars before a voice stay when the bars at its end are taken away. -/
lemma Leads.trimEnd (h : Leads k slots slots') (hsound : ∃ s ∈ slots, s.isSilent = false) :
    Leads k (trimEnd slots) (Slot.trimEnd slots') := by
  obtain ⟨rests, hlength, hrests, rfl⟩ := h
  obtain ⟨s, hs, hs'⟩ := hsound
  have hmoved : ∃ s ∈ slots.map (renumber k), s.isSilent = false :=
    ⟨s.renumber k, List.mem_map_of_mem hs, hs'⟩
  have hall : ∃ s ∈ rests ++ slots.map (renumber k), s.isSilent = false :=
    hmoved.imp fun _ h => h.imp_left (List.mem_append_right _)
  refine ⟨rests, hlength, hrests, ?_⟩
  rw [trimEnd_eq hall, trimEnd_eq ⟨s, hs, hs'⟩, dropTrailing_append rests hmoved,
    ← List.map_reverse, List.dropWhile_map, List.map_reverse]
  rfl

/-- A voice with more silent bars at its beginning begins with more silence. -/
lemma Leads.leadingSilence_eq (h : Leads k slots slots') (hne : slots ≠ []) :
    leadingSilence slots' = k + leadingSilence slots := by
  obtain ⟨rests, hlength, hrests, rfl⟩ := h
  have hpos : 0 < slots.length := List.length_pos_of_ne_nil hne
  have htake : ((slots.map (renumber k)).takeWhile isSilent).length =
      (slots.takeWhile isSilent).length := by
    rw [List.takeWhile_map, List.length_map]
    rfl
  unfold leadingSilence
  rw [List.takeWhile_append_of_pos hrests, List.length_append, List.length_append, htake,
    List.length_map, hlength]
  omega

/-- Without the silent bars before it a voice is as it was. -/
lemma Leads.dropBars_eq (h : Leads k slots slots') (count : Nat) :
    dropBars (k + count) slots' = dropBars count slots := by
  obtain ⟨rests, rfl, -, rfl⟩ := h
  have hindex : ∀ s : Slot Rat, s.index + rests.length - (rests.length + count : Nat) =
      s.index - count := by
    intro s
    push_cast
    ring
  unfold dropBars
  rw [List.drop_append, List.drop_eq_nil_of_le (Nat.le_add_right _ _), List.nil_append,
    Nat.add_sub_cancel_left, ← List.map_drop, List.map_map]
  refine List.map_congr_left fun s _ => ?_
  simp only [Function.comp, renumber, hindex]

/-- If all voices get as many silent bars, they share as many more. -/
lemma sharedSilence_eq {voices voices' : List (List (Slot Rat))}
    (h : List.Forall₂ (Leads k) voices voices') (hne : ∀ slots ∈ voices, slots ≠ [])
    (hvoices : voices ≠ []) : sharedSilence voices' = k + sharedSilence voices := by
  obtain ⟨⟨slots, hslots, hleast⟩, hle⟩ := isLeast_sharedSilence hvoices
  obtain ⟨slots', hslots', hleads : Leads k slots slots'⟩ := exists_mem_of_forall₂ h.flip hslots
  refine (isLeast_sharedSilence (List.ne_nil_of_mem hslots')).unique ⟨?_, ?_⟩
  · exact ⟨slots', hslots', hleast ▸ hleads.leadingSilence_eq (hne slots hslots)⟩
  · rintro _ ⟨slots', hslots', rfl⟩
    obtain ⟨slots, hslots, hleads⟩ := exists_mem_of_forall₂ h hslots'
    rw [hleads.leadingSilence_eq (hne slots hslots)]
    exact Nat.add_le_add_left (hle ⟨slots, hslots, rfl⟩) k

/-- Trimming takes away the silent bars before all voices. -/
lemma trimSilent_eq {voices voices' : List (List (Slot Rat))}
    (h : List.Forall₂ (Leads k) voices voices')
    (hsound : ∀ slots ∈ voices, ∃ s ∈ slots, s.isSilent = false) :
    trimSilent voices' = trimSilent voices := by
  have htrimmed : List.Forall₂ (Leads k) (voices.map Slot.trimEnd) (voices'.map Slot.trimEnd) := by
    rw [List.forall₂_map_left_iff, List.forall₂_map_right_iff]
    exact (List.forall₂_and_left _ _ |>.mpr ⟨hsound, h⟩).imp fun _ _ hvoice =>
      hvoice.2.trimEnd hvoice.1
  have hne : ∀ slots ∈ voices.map Slot.trimEnd, slots ≠ [] := by
    refine List.forall_mem_map.mpr fun slots hslots => ?_
    obtain ⟨s, hs, -⟩ := hsound slots hslots
    cases slots with
    | nil => cases hs
    | cons first rest => exact List.cons_ne_nil _ _
  by_cases hvoices : voices = []
  · subst hvoices
    rw [List.forall₂_nil_left_iff.mp h]
  · have hshared := sharedSilence_eq htrimmed hne (mt List.map_eq_nil_iff.mp hvoices)
    have hdropped : List.Forall₂ Eq (trimSilent voices) (trimSilent voices') := by
      rw [trimSilent, trimSilent, hshared, List.forall₂_map_left_iff, List.forall₂_map_right_iff]
      exact htrimmed.imp fun _ _ hvoice => (hvoice.dropBars_eq _).symm
    rw [List.forall₂_eq_eq_eq] at hdropped
    exact hdropped.symm

end Slot

/-! ## Whole documents -/

/-- A document whose events all begin later. -/
def Document.delay (time : Rat) (d : Document Rat) : Document Rat :=
  { d with voices := d.voices.map (List.map (Event.delay time)) }

namespace Conversion

variable {policy : Policy} {c : Settings Rat} {d : Document Rat} {k : Nat}
  {length tolerance quantizeTolerance : Rat}

/-- What is built of delayed voices: the same voices with silent bars before their own. -/
structure Built.Later (k : Nat) (b b' : Built Rat) : Prop where
  /-- The voices keep their numbers and get silent bars. -/
  voices : List.Forall₂ (fun v v' => v'.1 = v.1 ∧ Slot.Leads k v.2 v'.2) b.voices b'.voices
  /-- The same voices are left out. -/
  errors_eq : b'.errors = b.errors
  /-- The work ends as before. -/
  failure_eq : b'.failure = b.failure

/-- Delayed voices are built one after another as before. -/
lemma later_buildFrom
    (hplain : ∀ voice, (planOf policy c d voice).Plain length tolerance quantizeTolerance)
    (hk : 0 < k) {voices : List (List (Event Rat))}
    (honset : ∀ events ∈ voices, ∀ e ∈ events, 0 ≤ e.onset) (voice : Nat) :
    Built.Later k (buildFrom policy c d voice voices)
      (buildFrom policy c (d.delay (k * length)) voice
        (voices.map (List.map (Event.delay (k * length))))) := by
  induction voices generalizing voice with
  | nil => exact ⟨.nil, rfl, rfl⟩
  | cons events rest ih =>
    obtain ⟨hevents, hrest⟩ := List.forall_mem_cons.mp honset
    have hlater := (hplain voice).builtLater hk hevents
    obtain ⟨hvoices, herrors, hfailure⟩ := ih hrest (voice + 1)
    have hplan : planOf policy c (d.delay (k * length)) voice = planOf policy c d voice := rfl
    rw [List.map_cons, buildFrom, buildFrom, hplan]
    generalize (planOf policy c d voice).build events = result at hlater ⊢
    generalize (planOf policy c d voice).build (events.map (Event.delay (k * length))) = result'
      at hlater ⊢
    cases hlater with
    | failed f =>
      have hname : (d.delay (k * length)).voiceName voice = d.voiceName voice := rfl
      simp only [hname]
      split
      · exact ⟨hvoices, congrArg (List.cons _) herrors, hfailure⟩
      · exact ⟨.nil, rfl, rfl⟩
    | nothing => exact ⟨hvoices, herrors, hfailure⟩
    | @bars slots slots' hne h =>
      obtain ⟨first, more, rfl⟩ := List.exists_cons_of_ne_nil hne
      obtain ⟨first', more', rfl⟩ := List.exists_cons_of_ne_nil (h.ne_nil hne)
      exact ⟨.cons ⟨rfl, h⟩ hvoices, herrors, hfailure⟩

/-- Trimmed voices do not tell how much silence was before them. -/
lemma trimmed_eq (htrim : c.trimSilentBars = true)
    {voices voices' : List (Nat × List (Slot Rat))}
    (h : List.Forall₂ (fun v v' => v'.1 = v.1 ∧ Slot.Leads k v.2 v'.2) voices voices')
    (hsound : ∀ v ∈ voices, ∃ s ∈ v.2, s.isSilent = false) :
    trimmed c voices' = trimmed c voices := by
  have hnumbers : List.Forall₂ Eq (voices.map (·.1)) (voices'.map (·.1)) := by
    rw [List.forall₂_map_left_iff, List.forall₂_map_right_iff]
    exact h.imp fun _ _ hv => hv.1.symm
  have hbars : List.Forall₂ (Slot.Leads k) (voices.map (·.2)) (voices'.map (·.2)) := by
    rw [List.forall₂_map_left_iff, List.forall₂_map_right_iff]
    exact h.imp fun _ _ hv => hv.2
  rw [List.forall₂_eq_eq_eq] at hnumbers
  rw [trimmed, trimmed, if_pos htrim, if_pos htrim, ← hnumbers,
    Slot.trimSilent_eq hbars (List.forall_mem_map.mpr hsound)]

/-- Leading silence does not change a conversion. If silence is filled, both tolerances are numbers,
silent bars are trimmed, and every voice that has bars has one that is not silent, then the text,
the warnings and the errors stay as they are when all events begin whole bars later. -/
theorem ofDocument_delay (hlength : d.header.barLength = .ok length)
    (honset : ∀ events ∈ d.voices, ∀ e ∈ events, 0 ≤ e.onset)
    (hfill : (c.override policy).fillGaps = true) (hmarkers : ∀ voice, d.voiceMarkers voice = [])
    (hpickup : d.pickup = 0) (htolerance : c.tolerance = .value tolerance)
    (hnonneg : 0 ≤ tolerance) (hshort : tolerance < length)
    (hquantize : c.quantizeTolerance = .value quantizeTolerance)
    (htrim : c.trimSilentBars = true)
    (hsound : ∀ v ∈ (build policy c d).voices, ∃ s ∈ v.2, s.isSilent = false) (k : Nat) :
    ofDocument policy c (d.delay (k * length)) = ofDocument policy c d := by
  rcases Nat.eq_zero_or_pos k with rfl | hk
  · have hzero : Event.delay (((0 : Nat) : Rat) * length) = id := by
      funext e
      simp [Event.delay]
    rw [Document.delay, hzero, List.map_id_fun, List.map_id]
  · have hplain : ∀ voice : Nat,
        (planOf policy c d voice).Plain length tolerance quantizeTolerance :=
      fun voice => ⟨hlength, htolerance, hnonneg, hshort, hquantize, hfill, hmarkers voice, hpickup⟩
    have hbuilt : Built.Later k (build policy c d) (build policy c (d.delay (k * length))) :=
      later_buildFrom hplain hk honset 0
    have hisEmpty : (build policy c (d.delay (k * length))).voices.isEmpty =
        (build policy c d).voices.isEmpty := by
      rw [Bool.eq_iff_iff, List.isEmpty_iff_length_eq_zero, List.isEmpty_iff_length_eq_zero,
        hbuilt.voices.length_eq]
    rw [ofDocument, ofDocument]
    simp only [hbuilt.errors_eq, hbuilt.failure_eq, hisEmpty,
      trimmed_eq htrim hbuilt.voices hsound]
    rfl

/-- Two voices, of which one is held over a bar line and one begins with the second bar. -/
def entries : Document Rat where
  header := { tempo := 120 }
  voices := [[{ onset := 0, duration := 4000, pitch := some 0 }],
    [{ onset := 2000, duration := 2000, pitch := some 4 }]]
  pickup := 0

/-- Three bars later the two voices are converted to the same program, without a word about the
silence. -/
theorem ofDocument_delay_entries :
    entries.header.barLength = .ok 2000 ∧
      (build { fillGaps := true } .standard entries).voices.map
        (fun v => v.2.map (·.isSilent)) = [[false, false], [true, false]] ∧
      ofDocument { fillGaps := true } .standard (entries.delay ((3 : Nat) * 2000)) =
        ofDocument { fillGaps := true } .standard entries := by
  have hlength : entries.header.barLength = .ok 2000 := by cbv
  have hbuilt : (build { fillGaps := true } .standard entries).voices.map
      (fun v => v.2.map (·.isSilent)) = [[false, false], [true, false]] := by cbv
  have htolerance : (Settings.standard : Settings Rat).tolerance = .value 1 := rfl
  refine ⟨hlength, hbuilt, ofDocument_delay hlength ?_ rfl (fun _ => rfl) rfl htolerance
    (by norm_num) (by norm_num) rfl rfl ?_ 3⟩
  · simp [entries]
  · intro v hv
    have hmem : v.2.map (·.isSilent) ∈ [[false, false], [true, false]] := by
      rw [← hbuilt]
      exact List.mem_map_of_mem hv
    have hsound : ∀ silences ∈ [[false, false], [true, false]], false ∈ silences := by decide
    exact List.mem_map.mp (hsound _ hmem)

end Conversion

end PatternScore
