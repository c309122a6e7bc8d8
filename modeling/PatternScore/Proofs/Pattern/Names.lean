import PatternScore.Conversion.Run
import PatternScore.Proofs.Section.Partition
import PatternScore.Proofs.Text.Joining

/-!
# Names of arrays

The bar arrays and the section arrays of a composition share one space of names. The names of the
bar arrays have equally many parts between underscores, and a section array of one of several voices
has one part more, the name of the section. A single voice names its section arrays by their
sections alone, and no section is named like a bar array.
-/

namespace PatternScore

open Text

/-! ## Parts of names -/

/-- The parts of a name between its underscores. -/
def nameParts (name : String) : List (List Char) :=
  splitChars (· == '_') name.toList

/-- A name without underscores is its only part. -/
lemma nameParts_of_notMem {name : String} (h : '_' ∉ name.toList) :
    nameParts name = [name.toList] := by
  apply splitChars_eq_singleton
  intro c hc
  exact beq_false_of_ne fun heq => h (heq ▸ hc)

/-- Behind an underscore one more part begins. -/
lemma nameParts_append (name : String) {last : String} (h : '_' ∉ last.toList) :
    nameParts (name ++ "_" ++ last) = nameParts name ++ [last.toList] := by
  have hlist : (name ++ "_" ++ last).toList = name.toList ++ '_' :: last.toList := by
    simp
  rw [← nameParts_of_notMem h]
  unfold nameParts
  rw [hlist, splitChars_eq_splitOnP, splitChars_eq_splitOnP, splitChars_eq_splitOnP]
  exact List.splitOnP_append_cons _ _ rfl

/-- A name and a last part without underscores are told by the name they make. -/
lemma append_underscore_inj {name other last last' : String} (h : '_' ∉ last.toList)
    (h' : '_' ∉ last'.toList) (heq : name ++ "_" ++ last = other ++ "_" ++ last') :
    name = other ∧ last = last' := by
  have hparts := congrArg nameParts heq
  rw [nameParts_append name h, nameParts_append other h'] at hparts
  obtain rfl := String.toList_injective (List.singleton_inj.mp (List.append_inj' hparts rfl).2)
  refine ⟨?_, rfl⟩
  have hlists := congrArg String.toList heq
  simp only [String.toList_append, List.append_cancel_right_eq] at hlists
  exact String.toList_injective hlists

/-! ## Bar arrays -/

namespace Conversion

/-- No number is written with underscores. -/
lemma underscore_notMem_int (n : Int) : '_' ∉ (Text.int n).toList := by
  rw [toList_int]
  exact fun h => absurd (mem_of_mem_intChars h) (by decide)

/-- No natural number is. -/
lemma underscore_notMem_nat (n : Nat) : '_' ∉ (Text.nat n).toList :=
  underscore_notMem_int n

/-- The bar arrays of a piece have different names. -/
lemma nodup_arrayNames (count : Nat) (start : String) (tune : Option Int) :
    (arrayNames count start tune).Nodup := by
  have hrange : ∀ front : String,
      ((List.range count).map fun i => front ++ Text.nat i).Nodup := by
    intro front
    apply List.nodup_range.map
    intro i j hij
    have hlists := congrArg String.toList hij
    simp only [String.toList_append, List.append_cancel_left_eq, String.toList_inj] at hlists
    exact nat_injective hlists
  unfold arrayNames
  cases tune with
  | none => exact hrange start
  | some n =>
    simp only
    split
    · exact List.nodup_singleton _
    · exact hrange ("t" ++ Text.int n ++ "_v")

/-- The names of the bar arrays have equally many parts. -/
lemma length_nameParts_arrayNames (count : Nat) (tune : Option Int) :
    ∃ parts, ∀ name ∈ arrayNames count "part" tune, (nameParts name).length = parts := by
  unfold arrayNames
  cases tune with
  | none =>
    refine ⟨1, ?_⟩
    intro name hname
    obtain ⟨i, -, rfl⟩ := List.mem_map.mp hname
    rw [nameParts_of_notMem]
    · rfl
    · rw [String.toList_append, List.mem_append]
      rintro (h | h)
      · exact absurd h (by decide)
      · exact underscore_notMem_nat i h
  | some n =>
    have hfront : '_' ∉ ("t" ++ Text.int n).toList := by
      rw [String.toList_append, List.mem_append]
      rintro (h | h)
      · exact absurd h (by decide)
      · exact underscore_notMem_int n h
    simp only
    split
    · refine ⟨1, ?_⟩
      intro name hname
      rw [List.mem_singleton.mp hname, nameParts_of_notMem hfront]
      rfl
    · refine ⟨2, ?_⟩
      intro name hname
      obtain ⟨i, -, rfl⟩ := List.mem_map.mp hname
      have hlast : '_' ∉ ("v" ++ Text.nat i).toList := by
        rw [String.toList_append, List.mem_append]
        rintro (h | h)
        · exact absurd h (by decide)
        · exact underscore_notMem_nat i h
      have hname : "t" ++ Text.int n ++ "_v" ++ Text.nat i =
          "t" ++ Text.int n ++ "_" ++ ("v" ++ Text.nat i) := by
        apply String.toList_injective
        simp
      rw [hname, nameParts_append _ hlast, nameParts_of_notMem hfront]
      rfl

/-- The first letter of a bar array's name. -/
lemma head_arrayNames {count : Nat} {tune : Option Int} {name : String}
    (h : name ∈ arrayNames count "part" tune) : name.toList.head? ∈ ['p', 't'].map some := by
  unfold arrayNames at h
  cases tune with
  | none =>
    obtain ⟨i, -, rfl⟩ := List.mem_map.mp h
    rw [String.toList_append]
    exact List.mem_cons_self
  | some n =>
    simp only at h
    split at h
    · rw [List.mem_singleton.mp h, String.toList_append]
      exact List.mem_cons_of_mem _ List.mem_cons_self
    · obtain ⟨i, -, rfl⟩ := List.mem_map.mp h
      simp only [String.toList_append, List.append_assoc]
      exact List.mem_cons_of_mem _ List.mem_cons_self

/-- No section is named like a bar array. -/
lemma notMem_arrayNames_of_named {count : Nat} {tune : Option Int} {name : String}
    (h : Section.Named name) : name ∉ arrayNames count "part" tune := by
  intro hmem
  have h1 := head_arrayNames hmem
  have h2 := h.head
  revert h1 h2
  generalize name.toList.head? = c
  revert c
  simp

/-- There are as many names as voices. -/
lemma length_arrayNames (count : Nat) (start : String) (tune : Option Int) :
    (arrayNames count start tune).length = count := by
  unfold arrayNames
  cases tune with
  | none => simp
  | some n =>
    simp only
    split
    · rename_i h
      exact h.symm
    · simp

end Conversion

/-! ## Section arrays -/

/-- The names of the section arrays of several voices, or of one. -/
def sectionNames (several : Bool) (arrays : List String) (sections : List Section) : List String :=
  arrays.flatMap fun array =>
    sections.map fun s => if several then array ++ "_" ++ s.name else s.name

/-- The section arrays of several voices have different names. -/
lemma nodup_sectionNames {arrays : List String} {sections : List Section} (harrays : arrays.Nodup)
    (hnodup : (sections.map (·.name)).Nodup) (hnamed : ∀ s ∈ sections, Section.Named s.name) :
    (sectionNames true arrays sections).Nodup := by
  rw [sectionNames, List.nodup_flatMap]
  constructor
  · intro array _
    have hinj : Function.Injective fun name : String => array ++ "_" ++ name := by
      intro x y hxy
      have hlists := congrArg String.toList hxy
      simp only [String.toList_append, List.append_cancel_left_eq, String.toList_inj] at hlists
      exact hlists
    have := hnodup.map hinj
    rwa [List.map_map] at this
  · refine harrays.imp ?_
    intro array other hne name h h'
    obtain ⟨s, hs, rfl⟩ := List.mem_map.mp h
    obtain ⟨t, ht, heq⟩ := List.mem_map.mp h'
    have := append_underscore_inj (hnamed t ht).underscore_notMem
      (hnamed s hs).underscore_notMem heq
    exact hne this.1.symm

/-- All names of a piece are different. -/
lemma nodup_names {count : Nat} {tune : Option Int} {sections : List Section}
    (hnodup : (sections.map (·.name)).Nodup) (hnamed : ∀ s ∈ sections, Section.Named s.name) :
    (Conversion.arrayNames count "part" tune ++
      sectionNames (decide (1 < count)) (Conversion.arrayNames count "part" tune)
        sections).Nodup := by
  have harrays := Conversion.nodup_arrayNames count "part" tune
  by_cases hcount : 1 < count
  · rw [decide_eq_true hcount, List.nodup_append]
    refine ⟨harrays, nodup_sectionNames harrays hnodup hnamed, ?_⟩
    -- A section array has one part more than any bar array.
    obtain ⟨parts, hparts⟩ := Conversion.length_nameParts_arrayNames count tune
    intro array harray name hname heq
    obtain ⟨other, hother, hmem⟩ := List.mem_flatMap.mp hname
    obtain ⟨s, hs, rfl⟩ := List.mem_map.mp hmem
    have hlength := congrArg (fun name => (nameParts name).length) heq
    simp only [if_true, nameParts_append other (hnamed s hs).underscore_notMem,
      List.length_append, List.length_singleton, hparts array harray,
      hparts other hother] at hlength
    omega
  · rw [decide_eq_false hcount, List.nodup_append]
    have hlength := Conversion.length_arrayNames count "part" tune
    have hnames : ∀ name ∈ sectionNames false (Conversion.arrayNames count "part" tune) sections,
        Section.Named name := by
      intro name hname
      obtain ⟨array, -, hmem⟩ := List.mem_flatMap.mp hname
      obtain ⟨s, hs, rfl⟩ := List.mem_map.mp hmem
      exact hnamed s hs
    refine ⟨harrays, ?_, ?_⟩
    · generalize Conversion.arrayNames count "part" tune = arrays at hlength
      match arrays, hlength with
      | [], _ => exact List.nodup_nil
      | [array], _ => simpa [sectionNames] using hnodup
      | _ :: _ :: _, hlength =>
        simp only [List.length_cons] at hlength
        omega
    · intro array harray name hname heq
      exact Conversion.notMem_arrayNames_of_named (hnames name hname) (heq ▸ harray)

end PatternScore
