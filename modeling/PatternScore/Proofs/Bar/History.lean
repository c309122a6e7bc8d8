import PatternScore.Proofs.Bar.Catalog

/-!
# What catalogs record

The catalogs of the voices of a piece begin as the catalogs of their bars. From then on a bar may be
added to one voice (`Step.add`), and all voices may be padded to the length of the longest
(`Step.pad`). Whatever steps are taken, each catalog `Records` the bars that its voice was given:
those of the beginning, and behind them the bars and the rests of the steps in their order. A step
that pads makes the voices equally long and takes at most one new entry in each.
-/

namespace PatternScore.Catalog

/-- A catalog records bars: it plays them, with one entry for each different one. -/
structure Records (c : Catalog) (bars : List Bar) : Prop extends c.Sound where
  /-- The entries are the different bars, in the order in which they first occur. -/
  unique_eq : c.unique.map (·.tokens) = bars.eraseDups
  /-- The catalog plays the bars in their order. -/
  expand_eq : c.expand = bars
  /-- Two places have one number exactly if they have one bar. -/
  index_iff : ∀ i j : Nat, c.indices[i]? = c.indices[j]? ↔ bars[i]? = bars[j]?

/-- A catalog is padded to a length, with at most one new entry. -/
structure Padded (length : Nat) (before after : Catalog) : Prop where
  /-- The voice has the length. -/
  length_eq : after.length = length
  /-- The entries of before are kept, and at most one is new. -/
  unique_eq : ∃ new, after.unique = before.unique ++ new ∧ new.length ≤ 1

/-! ## Steps -/

/-- A step that changes the catalogs of the voices. -/
inductive Step where
  /-- One more bar for one voice. -/
  | add (voice : Nat) (bar : Bar)
  /-- Rests for all voices, up to the length of the longest. -/
  | pad

/-- The catalogs after a step. -/
def Step.run (catalogs : List Catalog) : Step → List Catalog
  | .add voice bar => catalogs.modify voice (·.add bar)
  | .pad => Catalog.pad catalogs

/-- The bars that the voices have been given after a step. -/
def Step.given (voices : List (List Bar)) : Step → List (List Bar)
  | .add voice bar => voices.modify voice (· ++ [bar])
  | .pad =>
    let longest := (voices.map List.length).foldl max 0
    voices.map fun bars => bars ++ List.replicate (longest - bars.length) Bar.empty

/-! ## One voice -/

/-- Numbers that stand for one bar are the same. -/
lemma Sound.eq_of_tokens_eq {c : Catalog} (hc : c.Sound) {a b : Nat} (ha : a ∈ c.indices)
    (hb : b ∈ c.indices)
    (h : (c.unique[a]?.map (·.tokens)).getD [] = (c.unique[b]?.map (·.tokens)).getD []) :
    a = b := by
  have halt := hc.index_lt a ha
  have hblt := hc.index_lt b hb
  rw [List.getElem?_eq_getElem halt, List.getElem?_eq_getElem hblt] at h
  have hentry : c.unique[a] = c.unique[b] :=
    List.inj_on_of_nodup_map hc.nodup (List.getElem_mem halt) (List.getElem_mem hblt) h
  rw [← hc.index_eq a halt, hentry, hc.index_eq b hblt]

/-- Two places have one number exactly if one bar is played at both. -/
lemma Sound.getElem?_indices_iff {c : Catalog} (hc : c.Sound) (i j : Nat) :
    c.indices[i]? = c.indices[j]? ↔ c.expand[i]? = c.expand[j]? := by
  rw [expand, List.getElem?_map, List.getElem?_map]
  constructor
  · intro h
    rw [h]
  · intro h
    cases hi : c.indices[i]? with
    | none =>
      rw [hi] at h
      exact (Option.map_eq_none_iff.mp h.symm).symm
    | some a =>
      cases hj : c.indices[j]? with
      | none => simp [hi, hj] at h
      | some b =>
        rw [hi, hj, Option.map_some, Option.map_some] at h
        have hab := hc.eq_of_tokens_eq (List.mem_of_getElem? hi) (List.mem_of_getElem? hj)
          (Option.some.inj h)
        rw [hab]

/-- A sound catalog records the bars that it expands to, if its entries are those bars without
repetition. -/
lemma Sound.records {c : Catalog} {bars : List Bar} (hc : c.Sound)
    (hunique : c.unique.map (·.tokens) = bars.eraseDups) (hexpand : c.expand = bars) :
    c.Records bars where
  toSound := hc
  unique_eq := hunique
  expand_eq := hexpand
  index_iff := hexpand ▸ hc.getElem?_indices_iff

/-- A catalog is as long as the list of bars that it records. -/
lemma Records.length_eq {c : Catalog} {bars : List Bar} (h : c.Records bars) :
    c.length = bars.length := by
  rw [← length_expand, h.expand_eq]

/-- A bar has an entry exactly if it has been recorded. -/
lemma Records.find?_eq_none_iff {c : Catalog} {bars : List Bar} (h : c.Records bars) (bar : Bar) :
    c.find? bar = none ↔ bar ∉ bars := by
  rw [← List.mem_eraseDups, ← h.unique_eq, find?, List.find?_eq_none]
  simp

/-- An added bar is recorded behind the others, and is an entry where it occurs first. -/
lemma Records.add {c : Catalog} {bars : List Bar} (h : c.Records bars) (bar : Bar) :
    (c.add bar).Records (bars ++ [bar]) := by
  have hmem := h.find?_eq_none_iff bar
  refine (h.toSound.add bar).records ?_ (by rw [h.toSound.expand_add, h.expand_eq])
  rw [List.eraseDups_append, ← h.unique_eq, Catalog.add]
  cases hfind : c.find? bar with
  | some u =>
    have hold : bar ∈ bars := by
      by_contra hnot
      simp [hmem.mpr hnot] at hfind
    have hremoved : [bar].removeAll bars = [] := by simp [List.removeAll, hold]
    rw [hremoved, List.eraseDups_nil, List.append_nil]
  | none =>
    have hkept : [bar].removeAll bars = [bar] := by simp [List.removeAll, hmem.mp hfind]
    rw [hkept, List.map_append]
    rfl

/-- Bars that are added one after another are recorded in their order. -/
lemma Records.foldl_add {c : Catalog} {bars : List Bar} (h : c.Records bars) (more : List Bar) :
    (more.foldl Catalog.add c).Records (bars ++ more) := by
  induction more generalizing c bars with
  | nil => rwa [List.append_nil]
  | cons bar more ih =>
    have hrest := ih (h.add bar)
    rwa [List.append_assoc, List.singleton_append] at hrest

/-- An empty catalog records that no bar was added. -/
lemma records_empty : Records {} [] :=
  sound_empty.records rfl rfl

/-- The catalog of a list of bars records the list. -/
lemma records_ofBars (bars : List Bar) : (ofBars bars).Records bars := by
  rw [ofBars_eq_foldl]
  exact records_empty.foldl_add bars

/-! ## Padding -/

/-- An added bar keeps the entries, and is the new one if there is any. -/
lemma exists_unique_add (c : Catalog) (bar : Bar) :
    ∃ new, (c.add bar).unique = c.unique ++ new ∧ new.length ≤ 1 := by
  unfold Catalog.add
  cases c.find? bar with
  | some u => exact ⟨[], (List.append_nil _).symm, Nat.zero_le _⟩
  | none => exact ⟨[⟨c.unique.length, bar⟩], rfl, Nat.le_refl _⟩

/-- A bar that has an entry gets no other. -/
lemma Records.unique_add_eq {c : Catalog} {bars : List Bar} (h : c.Records bars) {bar : Bar}
    (hbar : bar ∈ bars) : (c.add bar).unique = c.unique := by
  have hmem := h.find?_eq_none_iff bar
  unfold Catalog.add
  cases hfind : c.find? bar with
  | some u => rfl
  | none => exact absurd hbar (hmem.mp hfind)

/-- Bars that all have entries get no others. -/
lemma Records.unique_foldl_add_eq {c : Catalog} {bars more : List Bar} (h : c.Records bars)
    (hmore : ∀ bar ∈ more, bar ∈ bars) : (more.foldl Catalog.add c).unique = c.unique := by
  induction more generalizing c bars with
  | nil => rfl
  | cons bar more ih =>
    rw [List.foldl_cons, ih (h.add bar), h.unique_add_eq (hmore bar List.mem_cons_self)]
    intro b hb
    exact List.mem_append_left _ (hmore b (List.mem_cons_of_mem _ hb))

/-- A padded catalog records the rests as well. -/
lemma Records.padTo {c : Catalog} {bars : List Bar} (h : c.Records bars) (length : Nat) :
    (c.padTo length).Records (bars ++ List.replicate (length - bars.length) Bar.empty) := by
  rw [padTo_eq_foldl, h.length_eq]
  exact h.foldl_add _

/-- All rests that pad a catalog share one entry. -/
lemma Records.padded {c : Catalog} {bars : List Bar} (h : c.Records bars) {length : Nat}
    (hlength : c.length ≤ length) : c.Padded length (c.padTo length) := by
  refine ⟨?_, ?_⟩
  · rw [(h.padTo length).length_eq, List.length_append, List.length_replicate]
    have := h.length_eq
    omega
  · rw [padTo_eq_foldl]
    cases length - c.length with
    | zero => exact ⟨[], (List.append_nil _).symm, Nat.zero_le _⟩
    | succ missing =>
      rw [List.replicate_succ, List.foldl_cons, (h.add Bar.empty).unique_foldl_add_eq]
      · exact exists_unique_add c Bar.empty
      · intro bar hbar
        rw [List.eq_of_mem_replicate hbar]
        exact List.mem_append_right _ List.mem_cons_self

/-! ## All voices -/

variable {catalogs : List Catalog} {voices : List (List Bar)}

/-- The lengths of the catalogs are the numbers of the bars they record. -/
lemma map_length_eq (h : List.Forall₂ Records catalogs voices) :
    catalogs.map Catalog.length = voices.map List.length := by
  induction h with
  | nil => rfl
  | cons hc _ ih => rw [List.map_cons, List.map_cons, hc.length_eq, ih]

/-- A step keeps what the catalogs record up with what the voices are given. -/
lemma Step.run_records (h : List.Forall₂ Records catalogs voices) (step : Step) :
    List.Forall₂ Records (step.run catalogs) (step.given voices) := by
  cases step with
  | add voice bar =>
    change List.Forall₂ Records (catalogs.modify voice _) (voices.modify voice _)
    induction h generalizing voice with
    | nil => simp
    | cons hc hrest ih =>
      cases voice with
      | zero => simpa using ⟨hc.add bar, hrest⟩
      | succ voice => simpa using ⟨hc, ih voice⟩
  | pad =>
    have hlongest : longest catalogs = (voices.map List.length).foldl max 0 := by
      rw [longest_eq_foldl, map_length_eq h]
    simp only [run, given, Catalog.pad, hlongest, List.forall₂_map_left_iff,
      List.forall₂_map_right_iff]
    exact h.imp fun c bars hc => hc.padTo _

/-- Padding makes the voices as long as a length, with at most one new entry in each. -/
lemma map_padTo_padded (h : List.Forall₂ Records catalogs voices) {length : Nat}
    (hlength : ∀ c ∈ catalogs, c.length ≤ length) :
    List.Forall₂ (Padded length) catalogs (catalogs.map (padTo length)) := by
  induction h with
  | nil => exact .nil
  | cons hc _ ih =>
    obtain ⟨hfirst, hrest⟩ := List.forall_mem_cons.mp hlength
    exact .cons (hc.padded hfirst) (ih hrest)

/-- Whatever bars are added to voices and however often the voices are padded, each catalog records
what its voice was given; and to pad once more takes every voice to the length of the longest, with
at most one new entry. -/
theorem records_run (voices : List (List Bar)) (steps : List Step) :
    let catalogs := steps.foldl Step.run (voices.map ofBars)
    List.Forall₂ Records catalogs (steps.foldl Step.given voices) ∧
      List.Forall₂ (Padded (longest catalogs)) catalogs (Step.pad.run catalogs) ∧
      (∀ c ∈ catalogs, c.length ≤ longest catalogs) ∧
      (catalogs ≠ [] → ∃ c ∈ catalogs, c.length = longest catalogs) := by
  have hrun : List.Forall₂ Records (steps.foldl Step.run (voices.map ofBars))
      (steps.foldl Step.given voices) := by
    have hstart : List.Forall₂ Records (voices.map ofBars) voices := by
      rw [List.forall₂_map_left_iff, List.forall₂_same]
      exact fun bars _ => records_ofBars bars
    induction steps using List.reverseRecOn with
    | nil => exact hstart
    | append_singleton steps step ih =>
      rw [List.foldl_append, List.foldl_append]
      exact Step.run_records ih step
  exact ⟨hrun, map_padTo_padded hrun fun c => length_le_longest, fun c => length_le_longest,
    exists_length_eq_longest⟩

end PatternScore.Catalog
