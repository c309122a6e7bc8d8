import PatternScore.Bar.Catalog
import PatternScore.Proofs.Bar.Key

/-!
# Catalogs hold what they were given

A catalog is `Sound` when its entries are numbered in order, are all different and cover every
number of the index. Adding a bar keeps this, and what the catalog expands to is the bars that were
added, in their order. To look bars up by keys gives the catalog that is built one bar at a time if
keys tell bars apart, and only then (`ofBarsBy_eq_foldl_iff`); the keys of bars do.
-/

namespace PatternScore.Catalog

/-- The entries are numbered in order and all different, and every number has an entry. -/
structure Sound (c : Catalog) : Prop where
  /-- An entry's number is its place. -/
  index_eq : ∀ (i : Nat) (h : i < c.unique.length), c.unique[i].index = i
  /-- No bar has two entries. -/
  nodup : (c.unique.map (·.tokens)).Nodup
  /-- Every number in use has an entry. -/
  index_lt : ∀ i ∈ c.indices, i < c.unique.length

/-- Nothing is catalogued soundly. -/
lemma sound_empty : Sound {} where
  index_eq _ h := absurd h (Nat.not_lt_zero _)
  nodup := List.nodup_nil
  index_lt _ h := absurd h List.not_mem_nil

/-! ## One bar at a time -/

/-- The entry that is found for a bar holds the bar and stands at its own number. -/
lemma Sound.getElem?_of_find? {c : Catalog} (hc : c.Sound) {bar : Bar} {u : UniqueBar}
    (h : c.find? bar = some u) : c.unique[u.index]? = some u ∧ u.tokens = bar := by
  have htokens : u.tokens = bar := by simpa using List.find?_some h
  obtain ⟨i, hi, rfl⟩ := List.mem_iff_getElem.mp (List.mem_of_find?_eq_some h)
  rw [hc.index_eq i hi]
  exact ⟨List.getElem?_eq_getElem hi, htokens⟩

/-- A bar without an entry is none of the bars that have one. -/
lemma ne_of_find?_eq_none {c : Catalog} {bar : Bar} (h : c.find? bar = none) :
    ∀ u ∈ c.unique, u.tokens ≠ bar := by
  intro u hu heq
  have := List.find?_eq_none.mp h u hu
  simp [heq] at this

/-- Adding a bar keeps a catalog sound. -/
lemma Sound.add {c : Catalog} (hc : c.Sound) (bar : Bar) : (c.add bar).Sound := by
  unfold Catalog.add
  cases hfind : c.find? bar with
  | some u =>
    have hu := (hc.getElem?_of_find? hfind).1
    refine ⟨hc.index_eq, hc.nodup, ?_⟩
    intro i hi
    obtain hi | hi := List.mem_append.mp hi
    · exact hc.index_lt i hi
    · rw [List.mem_singleton.mp hi]
      exact (List.getElem?_eq_some_iff.mp hu).1
  | none =>
    have hnew := ne_of_find?_eq_none hfind
    refine ⟨?_, ?_, ?_⟩
    · intro i hi
      by_cases hlt : i < c.unique.length
      · simp only [List.getElem_append_left hlt]
        exact hc.index_eq i hlt
      · have hi' : i = c.unique.length := by
          simp only [List.length_append, List.length_singleton] at hi
          omega
        subst hi'
        simp
    · rw [List.map_append, List.nodup_append]
      refine ⟨hc.nodup, List.nodup_singleton _, ?_⟩
      intro x hx y hy
      obtain ⟨u, hu, rfl⟩ := List.mem_map.mp hx
      obtain rfl : y = bar := by simpa using hy
      exact hnew u hu
    · intro i hi
      rw [List.length_append, List.length_singleton]
      obtain hi | hi := List.mem_append.mp hi
      · exact Nat.lt_succ_of_lt (hc.index_lt i hi)
      · rw [List.mem_singleton.mp hi]
        exact Nat.lt_succ_self _

/-- A bar that is added comes behind what the catalog expanded to before. -/
lemma Sound.expand_add {c : Catalog} (hc : c.Sound) (bar : Bar) :
    (c.add bar).expand = c.expand ++ [bar] := by
  unfold Catalog.add
  cases hfind : c.find? bar with
  | some u =>
    obtain ⟨hu, rfl⟩ := hc.getElem?_of_find? hfind
    simp [expand, hu]
  | none =>
    simp only [expand, List.map_append, List.map_singleton]
    congr 1
    · apply List.map_congr_left
      intro i hi
      rw [List.getElem?_append_left (hc.index_lt i hi)]
    · simp

/-- A catalog expands to as many bars as it was given. -/
lemma length_expand (c : Catalog) : c.expand.length = c.length := by
  simp [expand, length]

/-- The bar that is played at a place is the entry of its number. -/
lemma Sound.map_tokens_eq {c : Catalog} (hc : c.Sound) {place i : Nat}
    (h : c.indices[place]? = some i) : c.unique[i]?.map (·.tokens) = c.expand[place]? := by
  have hlt := hc.index_lt i (List.mem_of_getElem? h)
  rw [expand, List.getElem?_map, h, Option.map_some, List.getElem?_eq_getElem hlt]
  rfl

/-! ## Padding -/

/-- Bars that are added one after another come behind each other. -/
lemma Sound.foldl_add {c : Catalog} (hc : c.Sound) (bars : List Bar) :
    (bars.foldl Catalog.add c).Sound ∧ (bars.foldl Catalog.add c).expand = c.expand ++ bars := by
  induction bars generalizing c with
  | nil => exact ⟨hc, (List.append_nil _).symm⟩
  | cons bar bars ih =>
    obtain ⟨hsound, hexpand⟩ := ih (hc.add bar)
    refine ⟨hsound, ?_⟩
    rw [List.foldl_cons, hexpand, hc.expand_add, List.append_assoc, List.singleton_append]

/-- Padding adds rests of a whole bar, as many as are missing. -/
lemma padTo_eq_foldl (length : Nat) (c : Catalog) :
    c.padTo length = (List.replicate (length - c.length) Bar.empty).foldl Catalog.add c := by
  unfold padTo
  generalize length - c.length = missing
  induction missing generalizing c with
  | zero => rfl
  | succ missing ih =>
    rw [List.range_succ, List.foldl_append, ih, List.replicate_succ', List.foldl_append]
    rfl

/-- Padding adds empty bars one at a time, so it keeps a catalog sound. -/
lemma Sound.padTo {c : Catalog} (hc : c.Sound) (length : Nat) : (c.padTo length).Sound := by
  rw [padTo_eq_foldl]
  exact (hc.foldl_add _).1

/-- Padding plays empty bars behind the others, up to the length. -/
lemma Sound.expand_padTo {c : Catalog} (hc : c.Sound) (length : Nat) :
    (c.padTo length).expand = c.expand ++ List.replicate (length - c.length) Bar.empty := by
  rw [padTo_eq_foldl]
  exact (hc.foldl_add _).2

/-! ## All bars at once -/

/-- One more bar, looked up by a text that stands for it. -/
def Index.addBy (key : Bar → String) (x : Index) (bar : Bar) : Index :=
  match x.seen.lookup (key bar) with
  | some i => { x with catalog := { x.catalog with indices := x.catalog.indices ++ [i] } }
  | none =>
    let i := x.catalog.unique.length
    { catalog :=
        { unique := x.catalog.unique ++ [⟨i, bar⟩], indices := x.catalog.indices ++ [i] }
      seen := (key bar, i) :: x.seen }

/-- The catalog of some bars, each looked up by a text that stands for it. -/
def ofBarsBy (key : Bar → String) (bars : List Bar) : Catalog :=
  (bars.foldl (Index.addBy key) {}).catalog

/-- The keys that are known are those of the entries, each with its number. -/
structure Index.Sound (key : Bar → String) (x : Index) : Prop where
  /-- The catalog is sound. -/
  catalog : x.catalog.Sound
  /-- The keys of the entries, the last one first. -/
  seen_eq : x.seen = (x.catalog.unique.map fun u => (key u.tokens, u.index)).reverse

section Lookup

variable {key : Bar → String} {x : Index}

/-- A bar is known by its key exactly if it has an entry. -/
lemma Index.Sound.lookup_eq (hx : x.Sound key) (hkey : Function.Injective key) (bar : Bar) :
    x.seen.lookup (key bar) = (x.catalog.find? bar).map (·.index) := by
  have hmem : ∀ i, (key bar, i) ∈ x.seen ↔
      ∃ u ∈ x.catalog.unique, u.tokens = bar ∧ u.index = i := by
    intro i
    rw [hx.seen_eq, List.mem_reverse, List.mem_map]
    constructor
    · rintro ⟨u, hu, heq⟩
      obtain ⟨hsame, hindex⟩ := Prod.mk.inj heq
      exact ⟨u, hu, hkey hsame, hindex⟩
    · rintro ⟨u, hu, rfl, rfl⟩
      exact ⟨u, hu, rfl⟩
  cases hlookup : x.seen.lookup (key bar) with
  | none =>
    cases hfind : x.catalog.find? bar with
    | none => rfl
    | some u =>
      have htokens := (hx.catalog.getElem?_of_find? hfind).2
      have hu := (hmem u.index).mpr ⟨u, List.mem_of_find?_eq_some hfind, htokens, rfl⟩
      have := List.lookup_eq_none_iff.mp hlookup _ hu
      simp at this
  | some i =>
    obtain ⟨before, after, heq, -⟩ := List.lookup_eq_some_iff.mp hlookup
    obtain ⟨u, hu, htokens, rfl⟩ := (hmem i).mp (by rw [heq]; simp)
    cases hfind : x.catalog.find? bar with
    | none => exact absurd htokens (ne_of_find?_eq_none hfind u hu)
    | some v =>
      have hv := (hx.catalog.getElem?_of_find? hfind).2
      have huv := List.inj_on_of_nodup_map hx.catalog.nodup hu
        (List.mem_of_find?_eq_some hfind) (htokens.trans hv.symm)
      rw [huv]
      rfl

/-- By keys or by scan, one more bar gives the same catalog. -/
lemma Index.Sound.catalog_addBy (hx : x.Sound key) (hkey : Function.Injective key) (bar : Bar) :
    (x.addBy key bar).catalog = x.catalog.add bar := by
  unfold Index.addBy Catalog.add
  rw [hx.lookup_eq hkey bar]
  cases x.catalog.find? bar <;> rfl

/-- A bar that is looked up by its key gets the entry of an equal bar, or a new one, as long as no
two bars have one key. -/
lemma Index.Sound.addBy (hx : x.Sound key) (hkey : Function.Injective key) (bar : Bar) :
    (x.addBy key bar).Sound key := by
  refine ⟨hx.catalog_addBy hkey bar ▸ hx.catalog.add bar, ?_⟩
  unfold Index.addBy
  cases hlookup : x.seen.lookup (key bar) with
  | some i => exact hx.seen_eq
  | none => simp [hx.seen_eq]

/-- By keys or by scan, some more bars give the same catalog. -/
lemma Index.Sound.catalog_foldl_addBy (hx : x.Sound key) (hkey : Function.Injective key)
    (bars : List Bar) :
    (bars.foldl (Index.addBy key) x).catalog = bars.foldl Catalog.add x.catalog := by
  induction bars generalizing x with
  | nil => rfl
  | cons bar bars ih =>
    rw [List.foldl_cons, List.foldl_cons, ih (hx.addBy hkey bar), hx.catalog_addBy hkey]

/-- Bars of one key that are looked up by it are taken for one bar. -/
lemma expand_ofBarsBy_pair {bar other : Bar} (h : key other = key bar) :
    (ofBarsBy key [bar, other]).expand = [bar, bar] := by
  simp [ofBarsBy, Index.addBy, expand, h]

/-- The catalog by keys is the one that is built bar by bar, if keys tell bars apart and only
then. -/
lemma ofBarsBy_eq_foldl_iff :
    (∀ bars : List Bar, ofBarsBy key bars = bars.foldl Catalog.add {}) ↔
      Function.Injective key := by
  constructor
  · intro h bar other heq
    have hexpand := expand_ofBarsBy_pair heq.symm
    rw [h, (sound_empty.foldl_add [bar, other]).2] at hexpand
    have hpair : [bar, other] = [bar, bar] := hexpand
    simpa using hpair.symm
  · intro hkey bars
    have hempty : Index.Sound key {} := ⟨sound_empty, rfl⟩
    exact hempty.catalog_foldl_addBy hkey bars

end Lookup

/-- Catalogs are built by the bars' own key. -/
lemma ofBars_eq_ofBarsBy (bars : List Bar) : ofBars bars = ofBarsBy Bar.key bars :=
  rfl

/-- The catalog by keys is the one that is built bar by bar. -/
lemma ofBars_eq_foldl (bars : List Bar) : ofBars bars = bars.foldl Catalog.add {} := by
  rw [ofBars_eq_ofBarsBy]
  exact ofBarsBy_eq_foldl_iff.mpr Bar.key_injective bars

/-- A voice has one catalog, whether its bars are looked up by their keys or compared one by one
with the entries. For this the keys must tell all bars apart, and they do. -/
theorem lookup_agrees_with_scan :
    (∀ bars : List Bar, ofBars bars = bars.foldl Catalog.add {}) ∧
      Function.Injective Bar.key ∧
      ∀ key : Bar → String,
        (∀ bars : List Bar, ofBarsBy key bars = bars.foldl Catalog.add {}) ↔
          Function.Injective key :=
  ⟨ofBars_eq_foldl, Bar.key_injective, fun _ => ofBarsBy_eq_foldl_iff⟩

/-- The catalog of some bars is sound, since their key tells them apart. -/
lemma sound_ofBars (bars : List Bar) : (ofBars bars).Sound := by
  rw [ofBars_eq_foldl]
  exact (sound_empty.foldl_add bars).1

/-- A catalog of bars expands to the bars. -/
lemma expand_ofBars (bars : List Bar) : (ofBars bars).expand = bars := by
  rw [ofBars_eq_foldl, (sound_empty.foldl_add bars).2]
  rfl

/-- The catalog of some bars plays as many of them. -/
lemma length_ofBars (bars : List Bar) : (ofBars bars).length = bars.length := by
  rw [← length_expand, expand_ofBars]

/-! ## The longest voice -/

/-- The longest of some lengths is at least each of them, and one of them unless it is the start. -/
lemma foldl_max_spec (lengths : List Nat) (start : Nat) :
    start ≤ lengths.foldl max start ∧ (∀ n ∈ lengths, n ≤ lengths.foldl max start) ∧
      (lengths.foldl max start = start ∨ lengths.foldl max start ∈ lengths) := by
  induction lengths generalizing start with
  | nil => exact ⟨Nat.le_refl _, fun n hn => absurd hn List.not_mem_nil, .inl rfl⟩
  | cons n rest ih =>
    obtain ⟨hstart, hrest, hattained⟩ := ih (max start n)
    refine ⟨(Nat.le_max_left _ _).trans hstart, ?_, ?_⟩
    · rw [List.forall_mem_cons]
      exact ⟨(Nat.le_max_right _ _).trans hstart, hrest⟩
    · rw [List.foldl_cons, List.mem_cons]
      obtain heq | hmem := hattained
      · obtain hmax | hmax := max_choice start n
        · exact .inl (heq.trans hmax)
        · exact .inr (.inl (heq.trans hmax))
      · exact .inr (.inr hmem)

/-- The length to which voices are padded is the greatest of theirs. -/
lemma longest_eq_foldl (catalogs : List Catalog) :
    longest catalogs = (catalogs.map Catalog.length).foldl max 0 := by
  rw [longest, List.foldl_map]

/-- No voice is longer than the longest. -/
lemma length_le_longest {catalogs : List Catalog} {c : Catalog} (hc : c ∈ catalogs) :
    c.length ≤ longest catalogs := by
  rw [longest_eq_foldl]
  exact (foldl_max_spec _ 0).2.1 _ (List.mem_map_of_mem hc)

/-- Some voice is as long as the longest. -/
lemma exists_length_eq_longest {catalogs : List Catalog} (hne : catalogs ≠ []) :
    ∃ c ∈ catalogs, c.length = longest catalogs := by
  obtain hzero | hmem := (foldl_max_spec (catalogs.map Catalog.length) 0).2.2
  · obtain ⟨c, hc⟩ := List.exists_mem_of_ne_nil catalogs hne
    refine ⟨c, hc, ?_⟩
    have hle := length_le_longest hc
    rw [longest_eq_foldl, hzero] at hle ⊢
    exact Nat.le_zero.mp hle
  · rw [longest_eq_foldl]
    exact List.mem_map.mp hmem

end PatternScore.Catalog
