import Mathlib.Data.List.DropRight
import Mathlib.Data.List.Forall2
import Mathlib.Order.Bounds.Basic
import Mathlib.Order.MinMax
import PatternScore.Conversion.Bars

/-!
# Trimming keeps voices aligned

Leaving out silent bars takes the same number of bars from the beginning of every voice, so that
bars that sound together still do, and some from the end of each voice; all of them are silent
(`Slot.TrimmedTo`). What is left is `Slot.Trimmed`: no voice ends with a silent bar and not all
begin with one, as far as a voice must keep a bar. Such voices stay what they are when they are
trimmed, so that trimming twice is trimming once (`Slot.trimSilent_aligned`).
-/

namespace PatternScore.Slot

variable {τ : Type} {slots : List (Slot τ)} {voices : List (List (Slot τ))} {count : Nat}

/-! ## Silence at the end of a voice -/

/-- A voice of more than one bar does not end with a silent bar. -/
def EndsSounding (slots : List (Slot τ)) : Prop :=
  1 < slots.length → ∀ s ∈ slots.getLast?, s.isSilent = false

/-- The first bar of a voice is never trimmed at its end. -/
lemma trimEnd_cons (first : Slot τ) (rest : List (Slot τ)) :
    trimEnd (first :: rest) = first :: rest.rdropWhile isSilent := rfl

/-- Some bar is left of a voice that has one. -/
lemma trimEnd_ne_nil (h : slots ≠ []) : trimEnd slots ≠ [] := by
  cases slots with
  | nil => exact absurd rfl h
  | cons first rest => exact List.cons_ne_nil _ _

/-- The bars at the end that are left out are silent. -/
lemma exists_eq_trimEnd_append (slots : List (Slot τ)) :
    ∃ tail, slots = trimEnd slots ++ tail ∧ ∀ s ∈ tail, s.isSilent = true := by
  cases slots with
  | nil => exact ⟨[], rfl, nofun⟩
  | cons first rest =>
    refine ⟨rest.rtakeWhile isSilent, ?_, fun s hs => List.mem_rtakeWhile_imp hs⟩
    rw [trimEnd_cons, List.cons_append, List.rdropWhile_append_rtakeWhile]

/-- No silent bar is left at the end, unless it is the only one. -/
lemma endsSounding_trimEnd (slots : List (Slot τ)) : EndsSounding (trimEnd slots) := by
  cases slots with
  | nil => exact nofun
  | cons first rest =>
    rw [trimEnd_cons, EndsSounding, List.length_cons]
    intro hlength s hs
    have hne : rest.rdropWhile isSilent ≠ [] := List.ne_nil_of_length_pos (by omega)
    rw [List.getLast?_cons_of_ne_nil hne, List.getLast?_eq_getLast_of_ne_nil hne] at hs
    obtain rfl := Option.some.inj hs
    simpa using List.rdropWhile_last_not isSilent rest hne

/-- Nothing is left out of a voice that ends with a sounding bar. -/
lemma EndsSounding.trimEnd_eq (h : EndsSounding slots) : trimEnd slots = slots := by
  cases slots with
  | nil => rfl
  | cons first rest =>
    rw [trimEnd_cons, List.cons_eq_cons, List.rdropWhile_eq_self_iff]
    refine ⟨rfl, fun hne => ?_⟩
    have hlength : 1 < (first :: rest).length := by
      simpa using List.length_pos_of_ne_nil hne
    have hlast := h hlength (rest.getLast hne)
    simpa [List.getLast?_cons_of_ne_nil hne, List.getLast?_eq_getLast_of_ne_nil hne] using hlast

/-- The bars at the end of a voice decide how it ends. -/
lemma EndsSounding.of_suffix {behind : List (Slot τ)} (h : EndsSounding slots)
    (hsuffix : behind <:+ slots) : EndsSounding behind := by
  intro hlength s hs
  obtain ⟨before, rfl⟩ := hsuffix
  have hne : behind ≠ [] := List.ne_nil_of_length_pos (by omega)
  refine h (by rw [List.length_append]; omega) s ?_
  rwa [List.getLast?_append_of_ne_nil _ hne]

/-! ## Silence at the beginning of all voices -/

/-- A voice does not begin with a silent bar, or it has just one bar. -/
def BeginsSounding (slots : List (Slot τ)) : Prop :=
  slots.length = 1 ∨ ∃ s ∈ slots.head?, s.isSilent = false

/-- A voice has a bar behind the silence that it begins with. -/
lemma leadingSilence_lt (h : slots ≠ []) : leadingSilence slots < slots.length := by
  have := List.length_pos_of_ne_nil h
  rw [leadingSilence]
  omega

/-- The bars of the silence that a voice begins with are silent. -/
lemma isSilent_of_mem_take (hcount : count ≤ leadingSilence slots) :
    ∀ s ∈ slots.take count, s.isSilent = true := by
  intro s hs
  have hbefore : slots.take count <+: slots.takeWhile isSilent :=
    List.prefix_of_prefix_length_le (List.take_prefix _ _) (List.takeWhile_prefix _) (by
      rw [leadingSilence] at hcount
      rw [List.length_take]
      omega)
  exact List.mem_takeWhile_imp (hbefore.subset hs)

/-- Without the silence that it begins with a voice begins with a sounding bar, if it has more than
one bar then. -/
lemma beginsSounding_drop (h : slots ≠ []) :
    BeginsSounding (slots.drop (leadingSilence slots)) := by
  have hpos := List.length_pos_of_ne_nil h
  by_cases hlast : leadingSilence slots = slots.length - 1
  · refine .inl ?_
    rw [hlast, List.length_drop]
    omega
  · refine .inr ?_
    have hsilence : leadingSilence slots = (slots.takeWhile isSilent).length := by
      rw [leadingSilence] at hlast ⊢
      omega
    have hdrop : slots.drop (slots.takeWhile isSilent).length = slots.dropWhile isSilent := by
      nth_rewrite 2 [← List.takeWhile_append_dropWhile (p := isSilent) (l := slots)]
      rw [List.drop_left]
    have hne : slots.drop (slots.takeWhile isSilent).length ≠ [] := by
      rw [← hsilence, Ne, List.drop_eq_nil_iff, not_le]
      exact leadingSilence_lt h
    rw [hsilence, List.head?_eq_some_head hne]
    refine ⟨_, rfl, ?_⟩
    simp only [hdrop]
    exact List.head_dropWhile_not isSilent (hdrop ▸ hne)

/-- The least of some numbers is found by going through them. -/
lemma isLeast_foldl_min {α : Type} (f : α → Nat) (rest : List α) (n : Nat) :
    IsLeast (insert n {k | ∃ x ∈ rest, f x = k}) (rest.foldl (fun n x => min n (f x)) n) := by
  induction rest generalizing n with
  | nil => simp
  | cons x rest ih =>
    obtain ⟨hmem, hle⟩ := ih (min n (f x))
    have hset : insert n {k | ∃ y ∈ x :: rest, f y = k} =
        insert n (insert (f x) {k | ∃ y ∈ rest, f y = k}) := by
      ext k
      simp [eq_comm]
    rw [hset, List.foldl_cons]
    refine ⟨?_, ?_⟩
    · obtain hmin | hmem := hmem
      · obtain hn | hx := min_choice n (f x)
        · exact .inl (hmin.trans hn)
        · exact .inr (.inl (hmin.trans hx))
      · exact .inr (.inr hmem)
    · have hboth := le_min_iff.mp (hle (Set.mem_insert _ _))
      rintro k (rfl | rfl | hk)
      · exact hboth.1
      · exact hboth.2
      · exact hle (Set.mem_insert_of_mem _ hk)

/-- The silence that all voices share is the least that one of them begins with. -/
lemma isLeast_sharedSilence (h : voices ≠ []) :
    IsLeast {n | ∃ slots ∈ voices, leadingSilence slots = n} (sharedSilence voices) := by
  cases voices with
  | nil => exact absurd rfl h
  | cons first rest =>
    have hleast := isLeast_foldl_min leadingSilence rest (leadingSilence first)
    have hset : {n | ∃ slots ∈ first :: rest, leadingSilence slots = n} =
        insert (leadingSilence first) {n | ∃ slots ∈ rest, leadingSilence slots = n} := by
      ext n
      simp [eq_comm]
    rwa [hset]

/-- No voice begins with less silence than all of them share. -/
lemma sharedSilence_le (h : slots ∈ voices) : sharedSilence voices ≤ leadingSilence slots :=
  (isLeast_sharedSilence (List.ne_nil_of_mem h)).2 ⟨slots, h, rfl⟩

/-! ## Trimmed voices -/

/-- The bars of a voice are numbered by their places. -/
def Numbered (slots : List (Slot τ)) : Prop :=
  ∀ (i : Nat) (h : i < slots.length), slots[i].index = i

/-- There are as many places to look at as bars. -/
instance (slots : List (Slot τ)) : Decidable (Numbered slots) :=
  inferInstanceAs (Decidable (∀ i, (h : i < slots.length) → slots[i].index = i))

/-- A voice is trimmed by taking away its first `count` bars and some at its end, all of them
silent. The others stay as they are, in their order, with numbers from zero on; there is at least
one. -/
structure TrimmedTo (count : Nat) (slots kept : List (Slot τ)) : Prop where
  /-- Which bars stay. -/
  exists_eq_append : ∃ lead middle tail, slots = lead ++ middle ++ tail ∧ lead.length = count ∧
    (∀ s ∈ lead ++ tail, s.isSilent = true) ∧
    kept = middle.mapIdx fun i s => { s with index := (i : Int) }
  /-- Some bar stays. -/
  ne_nil : kept ≠ []

/-- Nothing is left to trim. -/
structure Trimmed (voices : List (List (Slot τ))) : Prop where
  /-- Every voice has a bar. -/
  ne_nil : ∀ slots ∈ voices, slots ≠ []
  /-- No voice ends with a silent bar that is not its only one. -/
  endsSounding : ∀ slots ∈ voices, EndsSounding slots
  /-- Some voice begins with a bar that sounds, or with its only one. -/
  exists_beginsSounding : ∃ slots ∈ voices, BeginsSounding slots

/-- Numbered bars without the first ones are numbered from zero. -/
lemma dropBars_eq_mapIdx (h : Numbered slots) (count : Nat) :
    dropBars count slots =
      (slots.drop count).mapIdx fun i s => { s with index := (i : Int) } := by
  refine List.ext_getElem (by simp [dropBars]) fun i hi hi' => ?_
  have hindex := h (count + i) (by rw [dropBars, List.length_map, List.length_drop] at hi; omega)
  simp only [dropBars, List.getElem_map, List.getElem_mapIdx, List.getElem_drop, hindex]
  congr 1
  omega

/-- A bar is left behind the silence that a voice begins with. -/
lemma dropBars_ne_nil (hne : slots ≠ []) (hcount : count ≤ leadingSilence slots) :
    dropBars count slots ≠ [] := by
  rw [dropBars, Ne, List.map_eq_nil_iff, List.drop_eq_nil_iff, not_le]
  exact hcount.trans_lt (leadingSilence_lt hne)

/-- A voice loses at both its ends just silent bars. -/
lemma trimmedTo_dropBars (hne : slots ≠ []) (hnumbered : Numbered slots)
    (hcount : count ≤ leadingSilence (trimEnd slots)) :
    TrimmedTo count slots (dropBars count (trimEnd slots)) := by
  have htrim := trimEnd_ne_nil hne
  obtain ⟨tail, htail, hsilent⟩ := exists_eq_trimEnd_append slots
  have hkept : Numbered (trimEnd slots) := by
    intro i hi
    rw [htail] at hnumbered
    have hindex := hnumbered i (by rw [List.length_append]; omega)
    rwa [List.getElem_append_left hi] at hindex
  refine ⟨⟨(trimEnd slots).take count, (trimEnd slots).drop count, tail, ?_, ?_, ?_, ?_⟩, ?_⟩
  · rwa [List.take_append_drop]
  · rw [List.length_take, min_eq_left (hcount.trans (leadingSilence_lt htrim).le)]
  · intro s hs
    obtain hs | hs := List.mem_append.mp hs
    · exact isSilent_of_mem_take hcount s hs
    · exact hsilent s hs
  · exact dropBars_eq_mapIdx hkept count
  · exact dropBars_ne_nil htrim hcount

/-- How a voice ends and begins does not depend on the numbers of its bars. -/
lemma endsSounding_dropBars (h : EndsSounding slots) : EndsSounding (dropBars count slots) := by
  intro hlength s hs
  rw [dropBars, List.length_map] at hlength
  rw [dropBars, List.getLast?_map, Option.mem_map] at hs
  obtain ⟨t, ht, rfl⟩ := hs
  exact h.of_suffix (List.drop_suffix count slots) hlength t ht

/-- What begins with sound behind some bars still does when their numbers move down. -/
lemma beginsSounding_dropBars (h : BeginsSounding (slots.drop count)) :
    BeginsSounding (dropBars count slots) := by
  obtain hlength | ⟨s, hs, hsound⟩ := h
  · exact .inl (by rwa [dropBars, List.length_map])
  · refine .inr ⟨{ s with index := s.index - count }, ?_, hsound⟩
    rw [dropBars, List.head?_map, Option.mem_map]
    exact ⟨s, hs, rfl⟩

/-- Nothing is left to trim in trimmed voices. -/
lemma trimmed_trimSilent (hvoices : voices ≠ []) (hne : ∀ slots ∈ voices, slots ≠ []) :
    Trimmed (trimSilent voices) := by
  have htrim : ∀ slots ∈ voices.map trimEnd, slots ≠ [] :=
    List.forall_mem_map.mpr fun slots hslots => trimEnd_ne_nil (hne slots hslots)
  obtain ⟨slots, hslots, hleast⟩ := (isLeast_sharedSilence (mt List.map_eq_nil_iff.mp hvoices)).1
  refine ⟨?_, ?_, ?_⟩
  · refine List.forall_mem_map.mpr fun slots hslots => ?_
    exact dropBars_ne_nil (htrim slots hslots) (sharedSilence_le hslots)
  · refine List.forall_mem_map.mpr fun slots hslots => endsSounding_dropBars ?_
    obtain ⟨voice, -, rfl⟩ := List.mem_map.mp hslots
    exact endsSounding_trimEnd voice
  · refine ⟨_, List.mem_map_of_mem hslots, beginsSounding_dropBars ?_⟩
    rw [← hleast]
    exact beginsSounding_drop (htrim slots hslots)

/-- A voice that begins with sound, or has just one bar, has no silence to give away. -/
lemma leadingSilence_eq_zero (h : BeginsSounding slots) : leadingSilence slots = 0 := by
  obtain hlength | ⟨s, hs, hsound⟩ := h
  · rw [leadingSilence, hlength]
    simp
  · obtain ⟨rest, rfl⟩ := List.head?_eq_some_iff.mp hs
    simp [leadingSilence, hsound]

/-- Trimmed voices are not changed by trimming. -/
lemma Trimmed.trimSilent_eq (h : Trimmed voices) : trimSilent voices = voices := by
  have htrim : voices.map trimEnd = voices.map id :=
    List.map_congr_left fun slots hslots => (h.endsSounding slots hslots).trimEnd_eq
  rw [List.map_id] at htrim
  have hzero : sharedSilence voices = 0 := by
    obtain ⟨slots, hslots, hbegins⟩ := h.exists_beginsSounding
    exact Nat.le_zero.mp (leadingSilence_eq_zero hbegins ▸ sharedSilence_le hslots)
  have hdrop : ∀ slots : List (Slot τ), dropBars 0 slots = slots := fun slots => by
    simp [dropBars]
  rw [trimSilent, htrim, hzero, List.map_congr_left fun slots _ => hdrop slots, List.map_id']

/-- Trimming keeps voices aligned: every voice loses the same number of bars at its beginning and
some at its end, all of them silent, and keeps at least one; the bars that stay are unchanged, in
their order, and numbered from zero. No voice of more than one bar ends with a silent bar, some
voice begins with a sounding bar or has just one, and trimming again changes nothing. -/
theorem trimSilent_aligned (hvoices : voices ≠ []) (hne : ∀ slots ∈ voices, slots ≠ [])
    (hnumbered : ∀ slots ∈ voices, Numbered slots) :
    (∃ count, List.Forall₂ (TrimmedTo count) voices (trimSilent voices)) ∧
      Trimmed (trimSilent voices) ∧ trimSilent (trimSilent voices) = trimSilent voices := by
  have htrimmed := trimmed_trimSilent hvoices hne
  refine ⟨⟨sharedSilence (voices.map trimEnd), ?_⟩, htrimmed, htrimmed.trimSilent_eq⟩
  rw [trimSilent, List.map_map, List.forall₂_map_right_iff, List.forall₂_same]
  intro slots hslots
  exact trimmedTo_dropBars (hne slots hslots) (hnumbered slots hslots)
    (sharedSilence_le (List.mem_map_of_mem hslots))

/-- Two voices of four and of two bars, of which only the bars 2 and 1 sound. -/
def entering : List (List (Slot Nat)) :=
  let silent (index : Int) : Slot Nat := { index, tokens := [.rest 1], unit := 2000 }
  let sounding (index : Int) : Slot Nat := { index, tokens := [.note [0] 1], unit := 2000 }
  [[silent 0, silent 1, sounding 2, silent 3], [silent 0, sounding 1]]

/-- Of the two voices the first keeps a silent bar, since the second sounds in its second bar. -/
theorem trimSilent_aligned_entering :
    (trimSilent entering).map (·.map fun s => (s.index, s.isSilent)) =
        [[(0, true), (1, false)], [(0, false)]] ∧
      (∃ count, List.Forall₂ (TrimmedTo count) entering (trimSilent entering)) ∧
      Trimmed (trimSilent entering) ∧ trimSilent (trimSilent entering) = trimSilent entering :=
  ⟨by decide, trimSilent_aligned (by decide) (by decide) (by decide)⟩

end PatternScore.Slot
