import Mathlib.Data.List.Fold
import Mathlib.Data.List.MinMax
import PatternScore.Proofs.Bar.Catalog
import PatternScore.Proofs.Pattern.Names
import PatternScore.Proofs.Sequence

/-!
# A composition plays the bars of its voices

Playing a composition means looking up names: a bar stands in the bar array of its name, a section
array lists such places. `Composition.voices?` does this for the whole program and gives the bars of
every voice, or nothing if a name or a place is not declared. The main statement is that arranging
voices never fails, that no name is declared twice, and that the program plays exactly the bars of
every voice, with rests up to the length of the longest.
-/

namespace PatternScore

/-! ## Playing -/

namespace Composition

/-- The bar at a place of the bar array of a name. -/
def bar? (c : Composition) (array : String) (index : Int) : Option Bar := do
  let a ← c.arrays.find? (·.name == array)
  let u ← if index < 0 then none else a.bars[index.toNat]?
  return u.tokens

/-- The bars of the section array of a name. -/
def section? (c : Composition) (name : String) : Option (List Bar) := do
  let s ← c.sections.find? (·.name == name)
  s.refs.mapM fun r => c.bar? r.array r.index

end Composition

namespace Node

mutual

/-- The bars that a pattern plays one after another, unless it plays several lines. -/
def bars? (c : Composition) : Node → Option (List Bar)
  | bar array index => (c.bar? array index).map ([·])
  | sectionRef name => c.section? name
  | cat items => (lines? c items).map List.flatten
  | stack _ => none
  | voiced pattern _ => bars? c pattern

/-- The bars of each of some patterns. -/
def lines? (c : Composition) : List Node → Option (List (List Bar))
  | [] => some []
  | item :: rest => do return (← bars? c item) :: (← lines? c rest)

end

/-- The lines that a pattern plays together. -/
def voices? (c : Composition) : Node → Option (List (List Bar))
  | stack items => lines? c items
  | pattern => (bars? c pattern).map ([·])

/-- Patterns that all play give the list of what they play. -/
lemma lines?_map {α : Type} {c : Composition} {node : α → Node} {line : α → List Bar} {l : List α}
    (h : ∀ x ∈ l, bars? c (node x) = some (line x)) :
    lines? c (l.map node) = some (l.map line) := by
  induction l with
  | nil => rfl
  | cons x rest ih =>
    have hx := h x List.mem_cons_self
    have hrest := ih fun y hy => h y (List.mem_cons_of_mem _ hy)
    rw [List.map_cons, lines?, hx, hrest]
    rfl

/-- Patterns one after another play what each of them plays. -/
lemma bars?_cat_map {α : Type} {c : Composition} {node : α → Node} {line : α → List Bar}
    {l : List α} (h : ∀ x ∈ l, bars? c (node x) = some (line x)) :
    bars? c (.cat (l.map node)) = some (l.flatMap line) := by
  rw [bars?, lines?_map h]
  rfl

end Node

/-- The bars of every voice that a composition plays. -/
def Composition.voices? (c : Composition) : Option (List (List Bar)) :=
  c.program.body.voices? c

/-- The program of some voices plays what each of their patterns plays. -/
lemma Composition.voices?_programOf {α : Type} {c : Composition} {scale : String}
    {node : α → Node} {sound : α → String} {line : α → List Bar} {x : α} {rest : List α}
    (hnode : ∀ y, ∃ items, node y = .cat items)
    (h : ∀ y ∈ x :: rest, (node y).bars? c = some (line y)) :
    (programOf scale (node x, sound x) (rest.map fun y => (node y, sound y))).body.voices? c =
      some ((x :: rest).map line) := by
  have hx := h x List.mem_cons_self
  obtain ⟨items, hitems⟩ := hnode x
  unfold programOf
  split
  · rename_i hempty
    obtain rfl : rest = [] := by simpa using hempty
    simp only [hitems, Node.voices?]
    rw [← hitems, hx]
    rfl
  · have hmap : ((node x, sound x) :: rest.map fun y => (node y, sound y)) =
        (x :: rest).map fun y => (node y, sound y) := rfl
    split
    · simp only [Node.voices?, hmap, List.map_map]
      exact Node.lines?_map h
    · simp only [Node.voices?, hmap, List.map_map]
      exact Node.lines?_map h

/-! ## One voice -/

namespace Part

/-- The entry at a place within the voice. -/
lemma entryAt_eq {p : Part} {place : Nat} (h : place < p.catalog.length) :
    p.entryAt place = .ok ⟨p.array, p.catalog.indices.getD place 0⟩ := by
  have hnonneg : ¬ (place : Int) < 0 := by omega
  have hlt : place < p.catalog.indices.length := h
  simp only [entryAt, if_neg hnonneg, Int.toNat_natCast, List.getElem?_eq_getElem hlt,
    List.getD_eq_getElem?_getD, Option.getD_some]

/-- The places of a section. -/
lemma places_eq {start stop : Nat} {s : Section} (hstart : s.start = start)
    (hstop : s.stop = stop) (hle : start ≤ stop) :
    places s = (List.range' start (stop - start)).map Int.ofNat := by
  have hlength : s.length.toNat = stop - start := by
    rw [Section.length, hstart, hstop]
    omega
  rw [places, hlength, hstart, List.range'_eq_map_range, List.map_map]
  rfl

/-- The places of consecutive sections are those of all their bars. -/
lemma flatMap_places {start stop : Nat} {sections : List Section}
    (h : Section.Consecutive start stop sections) :
    sections.flatMap places = (List.range' start (stop - start)).map Int.ofNat := by
  induction sections generalizing start with
  | nil =>
    obtain rfl : start = stop := Int.ofNat_inj.mp h
    simp
  | cons s rest ih =>
    obtain ⟨hstart, hlt, hrest⟩ := h
    have hle := hrest.le
    obtain ⟨middle, hmiddle⟩ := Int.eq_ofNat_of_zero_le (show 0 ≤ s.stop by omega)
    rw [hmiddle] at hrest hle hlt
    have hbefore : start ≤ middle := by omega
    have hafter : middle ≤ stop := Int.ofNat_le.mp hle
    rw [List.flatMap_cons, ih hrest, places_eq hstart hmiddle hbefore, ← List.map_append]
    congr 1
    have hjoin : List.range' start (middle - start) ++
        List.range' (start + 1 * (middle - start)) (stop - middle) =
          List.range' start (middle - start + (stop - middle)) := List.range'_append
    rwa [show start + 1 * (middle - start) = middle by omega,
      show middle - start + (stop - middle) = stop - start by omega] at hjoin

/-- The section array that the voice declares for a section inside it. -/
def declared (several : Bool) (p : Part) (s : Section) : SectionArray :=
  ⟨p.sectionName several s,
    (places s).map fun place => ⟨p.array, p.catalog.indices.getD place.toNat 0⟩⟩

/-- The pattern of the voice. -/
def pattern (several : Bool) (sections : List Section) (p : Part) : Node :=
  if sections.isEmpty then .cat (p.catalog.indices.map fun (i : Nat) => .bar p.array i)
  else .cat (sections.map fun s => .sectionRef (p.sectionName several s))

/-- Every place of consecutive sections lies within their bars. -/
lemma exists_of_mem_places {stop : Nat} {sections : List Section}
    (h : Section.Consecutive 0 stop sections) {s : Section} (hs : s ∈ sections) {place : Int}
    (hplace : place ∈ places s) : ∃ i < stop, place = (i : Nat) := by
  have hmem : place ∈ sections.flatMap places := List.mem_flatMap.mpr ⟨s, hs, hplace⟩
  have h0 : Section.Consecutive ((0 : Nat) : Int) stop sections := h
  rw [flatMap_places h0] at hmem
  obtain ⟨i, hi, rfl⟩ := List.mem_map.mp hmem
  have := List.mem_range'_1.mp hi
  exact ⟨i, by omega, rfl⟩

/-- A voice that its sections partition can be played. -/
lemma play_eq {several : Bool} {sections : List Section} {p : Part}
    (h : sections ≠ [] → Section.Consecutive 0 p.catalog.length sections) :
    p.play several sections =
      .ok (sections.map (p.declared several), p.pattern several sections) := by
  unfold play pattern
  by_cases hempty : sections = []
  · subst hempty
    rfl
  · have hnil : sections.isEmpty = false := by simpa using hempty
    have harrays : sections.mapM (p.sectionArray several) =
        .ok (sections.map (p.declared several)) := by
      apply mapM_eq_ok
      intro s hs
      have hrefs : (places s).mapM p.entryAt = .ok ((places s).map fun place =>
          ⟨p.array, p.catalog.indices.getD place.toNat 0⟩) := by
        apply mapM_eq_ok
        intro place hplace
        obtain ⟨i, hi, rfl⟩ := exists_of_mem_places (h hempty) hs hplace
        exact entryAt_eq hi
      rw [sectionArray, hrefs]
      rfl
    rw [hnil]
    simp only [Bool.false_eq_true, if_false, harrays]
    simp [declared, Function.comp_def, bind, Except.bind, pure, Except.pure]

end Part

/-! ## All voices -/

/-- What is declared under a name of its own is found under it. -/
lemma find?_name_eq {α : Type} {name : α → String} {l : List α} (h : (l.map name).Nodup) {x : α}
    (hx : x ∈ l) : l.find? (fun y => name y == name x) = some x := by
  cases hfind : l.find? (fun y => name y == name x) with
  | none => exact absurd (List.find?_eq_none.mp hfind x hx) (by simp)
  | some y =>
    have hname : name y = name x := by simpa using List.find?_some hfind
    rw [List.inj_on_of_nodup_map h (List.mem_of_find?_eq_some hfind) hx hname]

namespace Composition

/-- The declarations are those of some voices, and no name is declared twice. -/
structure Declares (c : Composition) (several : Bool) (sections : List Section)
    (parts : List Part) : Prop where
  /-- Every voice declares its bars. -/
  arrays_eq : c.arrays = parts.map Part.barArray
  /-- Every voice declares its sections. -/
  sections_eq : c.sections = parts.flatMap fun p => sections.map (p.declared several)
  /-- The names are different. -/
  nodup : (c.arrays.map (·.name) ++ c.sections.map (·.name)).Nodup

variable {c : Composition} {several : Bool} {sections : List Section} {parts : List Part}

/-- A voice's place is played from the voice's own bars. -/
lemma Declares.bar?_eq (h : c.Declares several sections parts) {p : Part} (hp : p ∈ parts)
    (hsound : p.catalog.Sound) {place : Nat} (hplace : place < p.catalog.length) :
    c.bar? p.array (p.catalog.indices.getD place 0 : Nat) =
      some (p.catalog.expand.getD place []) := by
  have hmem : p.barArray ∈ c.arrays := by
    rw [h.arrays_eq]
    exact List.mem_map_of_mem hp
  have hfind := find?_name_eq (List.nodup_append.mp h.nodup).1 hmem
  have hlt : place < p.catalog.indices.length := hplace
  have hget : p.catalog.indices[place]? = some (p.catalog.indices.getD place 0) := by
    rw [List.getD_eq_getElem?_getD, List.getElem?_eq_getElem hlt, Option.getD_some]
  have hentry := hsound.map_tokens_eq hget
  have hlast : p.catalog.expand[place]? = some (p.catalog.expand.getD place []) := by
    have : place < p.catalog.expand.length := by rwa [Catalog.length_expand]
    rw [List.getD_eq_getElem?_getD, List.getElem?_eq_getElem this, Option.getD_some]
  rw [hlast] at hentry
  obtain ⟨u, hu, htokens⟩ := Option.map_eq_some_iff.mp hentry
  have hnonneg : ¬ ((p.catalog.indices.getD place 0 : Nat) : Int) < 0 := by omega
  have hbars : p.barArray.bars = p.catalog.unique := rfl
  rw [bar?, show p.array = p.barArray.name from rfl, hfind]
  simp only [Option.bind_eq_bind, Option.bind_some, if_neg hnonneg, Int.toNat_natCast, hbars, hu]
  exact congrArg some htokens

/-- A voice's section is played from the voice's own bars. -/
lemma Declares.section?_eq (h : c.Declares several sections parts) {p : Part} (hp : p ∈ parts)
    (hsound : p.catalog.Sound) (hpartition : Section.Consecutive 0 p.catalog.length sections)
    {s : Section} (hs : s ∈ sections) :
    c.section? (p.sectionName several s) =
      some ((Part.places s).map fun place => p.catalog.expand.getD place.toNat []) := by
  have hmem : p.declared several s ∈ c.sections := by
    rw [h.sections_eq]
    exact List.mem_flatMap.mpr ⟨p, hp, List.mem_map_of_mem hs⟩
  have hfind := find?_name_eq (List.nodup_append.mp h.nodup).2.1 hmem
  have hbars : ∀ place ∈ Part.places s,
      c.bar? p.array (p.catalog.indices.getD place.toNat 0 : Nat) =
        some (p.catalog.expand.getD place.toNat []) := by
    intro place hplace
    obtain ⟨i, hi, rfl⟩ := Part.exists_of_mem_places hpartition hs hplace
    exact h.bar?_eq hp hsound hi
  rw [section?, show p.sectionName several s = (p.declared several s).name from rfl, hfind]
  simp only [Option.bind_eq_bind, Option.bind_some, Part.declared, List.mapM_map]
  exact mapM_eq_some hbars

/-- All places of a list give the list. -/
lemma map_getD_range' (bars : List Bar) :
    (List.range' 0 bars.length).map (fun i => bars.getD i []) = bars := by
  apply List.ext_getElem
  · simp
  · intro i h1 h2
    simp [List.getD_eq_getElem?_getD, h2]

/-- The pattern of a voice plays the bars of the voice. -/
lemma Declares.bars?_pattern (h : c.Declares several sections parts) {p : Part} (hp : p ∈ parts)
    (hsound : p.catalog.Sound)
    (hpartition : sections ≠ [] → Section.Consecutive 0 p.catalog.length sections) :
    (p.pattern several sections).bars? c = some p.catalog.expand := by
  unfold Part.pattern
  by_cases hempty : sections = []
  · have hindices : p.catalog.indices =
        (List.range' 0 p.catalog.length).map fun i => p.catalog.indices.getD i 0 := by
      apply List.ext_getElem
      · simp [Catalog.length]
      · intro i h1 h2
        simp [List.getD_eq_getElem?_getD, h1]
    have hbars : ∀ i ∈ List.range' 0 p.catalog.length,
        Node.bars? c (.bar p.array (p.catalog.indices.getD i 0 : Nat)) =
          some [p.catalog.expand.getD i []] := by
      intro i hi
      have := List.mem_range'_1.mp hi
      rw [Node.bars?, h.bar?_eq hp hsound (by omega)]
      rfl
    rw [if_pos (by simpa using hempty), hindices, List.map_map]
    refine (Node.bars?_cat_map hbars).trans ?_
    rw [← List.map_eq_flatMap, ← Catalog.length_expand, map_getD_range']
  · have hfrom : Section.Consecutive ((0 : Nat) : Int) p.catalog.length sections :=
      hpartition hempty
    have hplaces := Part.flatMap_places hfrom
    have hsections : ∀ s ∈ sections,
        Node.bars? c (.sectionRef (p.sectionName several s)) =
          some ((Part.places s).map fun place => p.catalog.expand.getD place.toNat []) := by
      intro s hs
      exact h.section?_eq hp hsound (hpartition hempty) hs
    rw [if_neg (by simpa using hempty)]
    refine (Node.bars?_cat_map hsections).trans ?_
    rw [← List.map_flatMap, hplaces, List.map_map, Nat.sub_zero, ← Catalog.length_expand]
    exact congrArg some (map_getD_range' p.catalog.expand)

/-- The composition of voices that their sections partition. -/
lemma arrange_eq {x : Part} {rest : List Part} (hpad : Part.pad parts = x :: rest)
    (hseveral : several = decide (1 < parts.length)) (scale title : String) (cycles : Int)
    (hpartition : ∀ p ∈ x :: rest,
      sections ≠ [] → Section.Consecutive 0 p.catalog.length sections) :
    arrange parts scale title cycles sections = .ok {
      title
      cyclesPerMinute := cycles
      arrays := (x :: rest).map Part.barArray
      sections := (x :: rest).flatMap fun p => sections.map (p.declared several)
      program := programOf scale (x.pattern several sections, x.sound)
        (rest.map fun p => (p.pattern several sections, p.sound)) } := by
  have hlength : (x :: rest).length = parts.length := by
    rw [← hpad]
    simp [Part.pad]
  have hplayed : (x :: rest).mapM (Part.play several sections) = .ok ((x :: rest).map fun p =>
      (sections.map (p.declared several), p.pattern several sections)) :=
    mapM_eq_ok fun p hp => Part.play_eq (hpartition p hp)
  have hflatten : ((x :: rest).map fun p => sections.map (p.declared several)).flatten =
      (x :: rest).flatMap fun p => sections.map (p.declared several) := List.flatMap_def.symm
  simp only [arrange, hpad, hlength, ← hseveral, hplayed, bind, Except.bind, List.map_map]
  rw [← hflatten]
  simp only [List.map_cons, List.zip_cons_cons, List.zip_map', Function.comp_def]
  rfl

/-- Voices that their sections partition, and whose names are all different, are arranged into a
composition that declares them and plays them. -/
lemma exists_arrange (hne : parts ≠ []) (scale title : String) (cycles : Int)
    (hsound : ∀ p ∈ Part.pad parts, p.catalog.Sound)
    (hpartition : ∀ p ∈ Part.pad parts,
      sections ≠ [] → Section.Consecutive 0 p.catalog.length sections)
    (hnodup : (parts.map (·.array) ++
      sectionNames (decide (1 < parts.length)) (parts.map (·.array)) sections).Nodup) :
    ∃ c, arrange parts scale title cycles sections = .ok c ∧
      (c.arrays.map (·.name) ++ c.sections.map (·.name)).Nodup ∧
      c.voices? = some ((Part.pad parts).map fun p => p.catalog.expand) := by
  have hpad : Part.pad parts ≠ [] := by simpa [Part.pad] using hne
  have harrays : (Part.pad parts).map (·.array) = parts.map (·.array) := by
    simp [Part.pad, Part.padTo, Function.comp_def]
  obtain ⟨x, rest, hparts⟩ := List.exists_cons_of_ne_nil hpad
  rw [hparts] at hsound hpartition harrays ⊢
  refine ⟨_, arrange_eq hparts rfl scale title cycles hpartition, ?_⟩
  rw [← harrays] at hnodup
  generalize decide (1 < parts.length) = several at hnodup ⊢
  have hdeclares : Declares {
      title
      cyclesPerMinute := cycles
      arrays := (x :: rest).map Part.barArray
      sections := (x :: rest).flatMap fun p => sections.map (p.declared several)
      program := programOf scale (x.pattern several sections, x.sound)
        (rest.map fun p => (p.pattern several sections, p.sound)) }
      several sections (x :: rest) := by
    refine ⟨rfl, rfl, ?_⟩
    have hnames : ((x :: rest).flatMap fun p => sections.map (p.declared several)).map (·.name) =
        sectionNames several ((x :: rest).map (·.array)) sections := by
      rw [sectionNames, List.map_flatMap, List.flatMap_map]
      simp only [List.map_map]
      rfl
    rw [hnames, List.map_map]
    exact hnodup
  refine ⟨hdeclares.nodup, ?_⟩
  apply voices?_programOf
  · intro p
    unfold Part.pattern
    split <;> exact ⟨_, rfl⟩
  · intro p hp
    exact hdeclares.bars?_pattern hp (hsound p hp) (hpartition p hp)

/-! ## Parts with the bars of voices -/

section Voices

variable {τ : Type} {voices : List (List (Slot τ))}
  (hcatalogs : parts.map (·.catalog) = voices.map fun v => Catalog.ofBars (v.map (·.tokens)))

/-- The length of the longest of some lists bounds nothing that their lengths do not bound. -/
lemma foldl_max_le {lengths : List Nat} {count : Nat} (h : ∀ n ∈ lengths, n ≤ count) :
    lengths.foldl max 0 ≤ count := by
  rw [List.foldl_eq_foldr]
  exact List.max_le_of_forall_le lengths count h

include hcatalogs

/-- Padded parts have the bars of the voices, filled up to the longest voice. -/
lemma catalog_pad : (Part.pad parts).map (·.catalog) = voices.map fun v =>
    (Catalog.ofBars (v.map (·.tokens))).padTo ((voices.map List.length).foldl max 0) := by
  have hlongest : Catalog.longest (parts.map (·.catalog)) =
      (voices.map List.length).foldl max 0 := by
    rw [hcatalogs, Catalog.longest_eq_foldl, List.map_map]
    simp [Function.comp_def, Catalog.length_ofBars]
  have hpad : (Part.pad parts).map (·.catalog) =
      (parts.map (·.catalog)).map (Catalog.padTo ((voices.map List.length).foldl max 0)) := by
    rw [Part.pad, hlongest, List.map_map, List.map_map]
    rfl
  rw [hpad, hcatalogs, List.map_map]
  rfl

/-- Padded parts play the bars of the voices and then rests. -/
lemma expand_pad : (Part.pad parts).map (fun p => p.catalog.expand) =
    voices.map fun v => v.map (·.tokens) ++
      List.replicate ((voices.map List.length).foldl max 0 - v.length) Bar.empty := by
  have hmap : (Part.pad parts).map (fun p => p.catalog.expand) =
      ((Part.pad parts).map (·.catalog)).map Catalog.expand := by
    rw [List.map_map]
    rfl
  rw [hmap, catalog_pad hcatalogs, List.map_map]
  apply List.map_congr_left
  intro v _
  rw [Function.comp_apply, (Catalog.sound_ofBars _).expand_padTo, Catalog.expand_ofBars,
    Catalog.length_ofBars, List.length_map]

/-- Padded parts are sound. -/
lemma sound_pad {p : Part} (hp : p ∈ Part.pad parts) : p.catalog.Sound := by
  have hmem : p.catalog ∈ (Part.pad parts).map (·.catalog) := List.mem_map_of_mem hp
  rw [catalog_pad hcatalogs] at hmem
  obtain ⟨v, -, heq⟩ := List.mem_map.mp hmem
  rw [← heq]
  exact (Catalog.sound_ofBars _).padTo _

/-- If all voices are equally long, padded parts are as long. -/
lemma length_pad {count : Nat} (h : ∀ v ∈ voices, v.length = count) {p : Part}
    (hp : p ∈ Part.pad parts) : p.catalog.length = count := by
  have hmem : p.catalog.expand ∈ (Part.pad parts).map (fun p => p.catalog.expand) :=
    List.mem_map_of_mem hp
  rw [expand_pad hcatalogs] at hmem
  obtain ⟨v, hv, heq⟩ := List.mem_map.mp hmem
  have hlongest : (voices.map List.length).foldl max 0 ≤ count :=
    foldl_max_le (List.forall_mem_map.mpr fun v hv => (h v hv).le)
  rw [← Catalog.length_expand, ← heq, List.length_append, List.length_map, List.length_replicate,
    h v hv]
  omega

/-- Sections that the voices share partition the padded parts. -/
lemma partition_pad (hshared : Section.shared (voices.map fun v => v.map (·.mark)) = some sections)
    {p : Part} (hp : p ∈ Part.pad parts) :
    Section.Consecutive 0 p.catalog.length sections := by
  obtain ⟨count, hdetect⟩ := Section.detect_of_shared hshared
  have hvoices : ∀ v ∈ voices, v.length = count := by
    intro v hv
    have hmarks := (hdetect _ (List.mem_map_of_mem hv)).1
    rwa [List.length_map] at hmarks
  have hmem : p.catalog ∈ (Part.pad parts).map (·.catalog) := List.mem_map_of_mem hp
  rw [catalog_pad hcatalogs] at hmem
  obtain ⟨v, hv, -⟩ := List.mem_map.mp hmem
  obtain ⟨hmarks, hsections⟩ := hdetect _ (List.mem_map_of_mem hv)
  rw [length_pad hcatalogs hvoices hp, ← hmarks]
  exact (Section.detect_partition hsections).1

end Voices

/-- Sections that voices share have different names, and names of sections. -/
lemma named_of_shared {marks : List (List (Option RepeatMark))}
    (hshared : Section.shared marks = some sections) :
    (sections.map (·.name)).Nodup ∧ ∀ s ∈ sections, Section.Named s.name := by
  obtain ⟨count, hdetect⟩ := Section.detect_of_shared hshared
  have hne : marks ≠ [] := by
    rintro rfl
    cases hshared
  obtain ⟨voice, hvoice⟩ := List.exists_mem_of_ne_nil marks hne
  exact (Section.detect_partition (hdetect voice hvoice).2).2

/-! ## The main statement -/

/-- **A composition plays the bars it was given.** Voices of deduplicated bars, under the names that
a conversion gives them and with the sections that they share or with none, are always arranged; no
name is declared twice; and the program plays for every voice exactly its bars, followed by rests of
a whole bar up to the length of the longest voice. -/
theorem arrange_plays_voices {τ : Type} {voices : List (List (Slot τ))} {parts : List Part}
    {sections : List Section} {tune : Option Int} (hne : voices ≠ [])
    (harrays : parts.map (·.array) = Conversion.arrayNames voices.length "part" tune)
    (hcatalogs : parts.map (·.catalog) = voices.map fun v => Catalog.ofBars (v.map (·.tokens)))
    (hsections : sections = [] ∨
      Section.shared (voices.map fun v => v.map (·.mark)) = some sections)
    (scale title : String) (cycles : Int) :
    ∃ c, arrange parts scale title cycles sections = .ok c ∧
      (c.arrays.map (·.name) ++ c.sections.map (·.name)).Nodup ∧
      c.voices? = some (voices.map fun v => v.map (·.tokens) ++
        List.replicate ((voices.map List.length).foldl max 0 - v.length) Bar.empty) := by
  have hlength : parts.length = voices.length := by
    have := congrArg List.length hcatalogs
    simpa using this
  rw [← expand_pad hcatalogs]
  apply exists_arrange
  · rintro rfl
    exact hne (List.length_eq_zero_iff.mp hlength.symm)
  · intro p hp
    exact sound_pad hcatalogs hp
  · intro p hp hsome
    exact partition_pad hcatalogs (hsections.resolve_left hsome) hp
  · have hnames : (sections.map (·.name)).Nodup ∧ ∀ s ∈ sections, Section.Named s.name := by
      obtain rfl | hshared := hsections
      · exact ⟨List.nodup_nil, fun s hs => absurd hs List.not_mem_nil⟩
      · exact named_of_shared hshared
    rw [harrays, hlength]
    exact nodup_names hnames.1 hnames.2

/-- Two voices whose second bar closes a repeat, in sections of their own. -/
theorem arrange_plays_main_coda :
    let slot (tokens : Bar) (mark : Option RepeatMark) : Slot Rat :=
      { index := 0, tokens, mark, unit := 0 }
    let a : Bar := [.note [0, 4] 1, .rest 1]
    let b : Bar := [.note [-3] 2]
    let voices := [[slot a none, slot b (some .closes), slot a none],
      [slot b none, slot b (some .closes), slot b none]]
    let sections : List Section := [⟨"main", 0, 2⟩, ⟨"coda", 2, 3⟩]
    let parts : List Part := [⟨"t5_v0", "High", Catalog.ofBars [a, b, a], "piano"⟩,
      ⟨"t5_v1", "Low", Catalog.ofBars [b, b, b], "bass"⟩]
    Section.shared (voices.map fun v => v.map (·.mark)) = some sections ∧
    ∃ c, arrange parts "C:major" "" 30 sections = .ok c ∧
      (c.arrays.map (·.name) ++ c.sections.map (·.name)).Nodup ∧
      c.voices? = some [[a, b, a], [b, b, b]] := by
  intro slot a b voices sections parts
  have harrays : parts.map (·.array) = Conversion.arrayNames voices.length "part" (some 5) := by
    decide +kernel
  have hshared : Section.shared (voices.map fun v => v.map (·.mark)) = some sections := by decide
  exact ⟨hshared,
    arrange_plays_voices (List.cons_ne_nil _ _) harrays rfl (.inr hshared) "C:major" "" 30⟩

end Composition

end PatternScore
