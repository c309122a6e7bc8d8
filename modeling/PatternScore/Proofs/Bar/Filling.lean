import PatternScore.Bar.Segmentation
import PatternScore.Proofs.Number.Exact

/-!
# What bars are filled with

Bars are closed one after another, and none is closed empty: cut bars are numbered from zero and all
hold fragments (`Slot.Filled`). A property that the grid gives to every fragment it makes
(`Grid.Makes`) belongs to all fragments of a bar, unless the bar is an upbeat, whose fragments are
moved. Each step of the scanner keeps this (`Scanner.Keeps`), whatever events it is given and in
whatever arithmetic it computes. In exact arithmetic, for one, all fragments lie within their bar
(`Grid.makes_within`).
-/

namespace PatternScore

variable {τ : Type} {P : Fragment τ → Prop}

/-! ## Bars that are filled -/

/-- Bars are numbered from zero, and hold fragments with a property. -/
structure Slot.Filled (P : Fragment τ → Prop) (slots : List (Slot τ)) : Prop where
  /-- The number of a bar is its place. -/
  index_eq : ∀ (i : Nat) (h : i < slots.length), slots[i].index = i
  /-- No bar is empty. -/
  fragments_ne_nil : ∀ s ∈ slots, s.fragments ≠ []
  /-- All fragments of a bar have the property, unless it is an upbeat. -/
  all : ∀ s ∈ slots, s.pickup = false → ∀ f ∈ s.fragments, P f

/-- No bars are bars filled as they should be. -/
lemma Slot.filled_nil : Slot.Filled P [] :=
  ⟨fun _ h => absurd h (Nat.not_lt_zero _), fun _ h => absurd h List.not_mem_nil,
    fun _ h => absurd h List.not_mem_nil⟩

/-- One more bar that is filled. -/
lemma Slot.Filled.concat {slots : List (Slot τ)} (h : Slot.Filled P slots) {s : Slot τ}
    (hindex : s.index = slots.length) (hne : s.fragments ≠ []) (hall : ∀ f ∈ s.fragments, P f) :
    Slot.Filled P (slots ++ [s]) where
  index_eq i hi := by
    by_cases hlt : i < slots.length
    · rw [List.getElem_append_left hlt]
      exact h.index_eq i hlt
    · have hlast : i = slots.length := by
        rw [List.length_append, List.length_singleton] at hi
        omega
      subst hlast
      simpa using hindex
  fragments_ne_nil s' hs' := by
    obtain hs' | hs' := List.mem_append.mp hs'
    · exact h.fragments_ne_nil s' hs'
    · rwa [List.mem_singleton.mp hs']
  all s' hs' hpickup := by
    obtain hs' | hs' := List.mem_append.mp hs'
    · exact h.all s' hs' hpickup
    · rwa [List.mem_singleton.mp hs']

/-- Another first bar may be put in place of one, of the same number and not empty either. -/
lemma Slot.Filled.replaceHead {first first' : Slot τ} {rest : List (Slot τ)}
    (h : Slot.Filled P (first :: rest)) (hindex : first'.index = first.index)
    (hne : first'.fragments ≠ []) (hall : first'.pickup = false → ∀ f ∈ first'.fragments, P f) :
    Slot.Filled P (first' :: rest) where
  index_eq i hi := by
    cases i with
    | zero => exact hindex.trans (h.index_eq 0 (Nat.zero_lt_succ _))
    | succ i => exact h.index_eq (i + 1) hi
  fragments_ne_nil := List.forall_mem_cons.mpr
    ⟨hne, (List.forall_mem_cons.mp h.fragments_ne_nil).2⟩
  all := List.forall_mem_cons.mpr ⟨hall, (List.forall_mem_cons.mp h.all).2⟩

/-- Marks change nothing about what bars hold. -/
lemma Slot.Filled.mark {slots : List (Slot τ)} (h : Slot.Filled P slots) (g : Grid τ) :
    Slot.Filled P (g.mark slots) where
  index_eq i hi := by
    rw [Grid.mark, List.length_map] at hi
    simpa [Grid.mark] using h.index_eq i hi
  fragments_ne_nil := List.forall_mem_map.mpr h.fragments_ne_nil
  all := List.forall_mem_map.mpr h.all

/-- The closed bars are filled and the open one holds fragments with the property. -/
structure Scanner.Keeps (P : Fragment τ → Prop) (s : Scanner τ) : Prop where
  /-- The open bar has the number behind the closed ones. -/
  number_eq : s.closed.length = s.number
  /-- The closed bars are filled. -/
  closed : Slot.Filled P s.closed.reverse
  /-- The fragments of the open bar have the property. -/
  current : ∀ f ∈ s.current, P f

/-- A new scanner has no fragments and no bars. -/
lemma Scanner.keeps_start : Scanner.Keeps P ({} : Scanner τ) :=
  ⟨rfl, Slot.filled_nil, fun _ h => absurd h List.not_mem_nil⟩

variable [Scalar τ] {g : Grid τ}

/-- Every fragment that is made on a grid has a property. -/
structure Grid.Makes (g : Grid τ) (P : Fragment τ → Prop) : Prop where
  /-- A rest of a whole bar has it. -/
  wholeRest : P (Scanner.wholeRest g)
  /-- What lies in the open bar of a piece has it. -/
  piece : ∀ (s : Scanner τ) (start stop : τ) (pitch : Option Int) (chord : Option ChordMark),
    Scalar.max start (s.start g) < s.cut g stop →
      P { offset := Scalar.max start (s.start g) - s.start g
          duration := s.cut g stop - Scalar.max start (s.start g), pitch, chord }
  /-- The rest that fills up a bar whose fragments have the property has it. -/
  filling : ∀ first rest, (∀ f ∈ first :: rest, P f) →
    g.tolerance < g.length - Scanner.covered first rest →
      P { offset := Scanner.covered first rest
          duration := g.length - Scanner.covered first rest }

/-- Whatever is made has a property that everything has. -/
lemma Grid.makes_true (g : Grid τ) : g.Makes fun _ => True :=
  ⟨trivial, fun _ _ _ _ _ _ => trivial, fun _ _ _ _ => trivial⟩

/-! ## Steps of the scanner -/

namespace Scanner

variable {s : Scanner τ}

/-- The bar that closes holds what was in it, or else the rest of a whole bar, which the grid
makes. -/
lemma Keeps.close (hg : g.Makes P) (h : Keeps P s) : Keeps P (s.close g) where
  number_eq := congrArg (· + 1) h.number_eq
  closed := by
    rw [Scanner.close, List.reverse_cons]
    refine h.closed.concat (by simp [h.number_eq]) ?_ ?_
    · by_cases hempty : s.current.isEmpty
      · simp [hempty]
      · rw [if_neg hempty, Ne, List.reverse_eq_nil_iff]
        exact fun hnil => hempty (List.isEmpty_iff.mpr hnil)
    · by_cases hempty : s.current.isEmpty
      · simpa [hempty] using hg.wholeRest
      · simpa [hempty] using h.current
  current _ hf := absurd hf List.not_mem_nil

/-- Closing several bars is closing one after another. -/
lemma Keeps.advance (hg : g.Makes P) (h : Keeps P s) (time : τ) (bars : Nat) :
    Keeps P (advance g time bars s) := by
  induction bars generalizing s with
  | zero => exact h
  | succ bars ih =>
    unfold Scanner.advance
    split
    · exact ih (h.close hg)
    · exact h

/-- A piece leaves at most one fragment, which the grid makes. -/
lemma Keeps.put (hg : g.Makes P) (h : Keeps P s) (start stop : τ) (pitch : Option Int)
    (chord : Option ChordMark) : Keeps P (s.put g start stop pitch chord) := by
  unfold Scanner.put
  dsimp only
  split
  · rename_i hlasts
    have hpiece := hg.piece s start stop pitch chord hlasts
    exact ⟨h.number_eq, h.closed, List.forall_mem_cons.mpr ⟨hpiece, h.current⟩⟩
  · exact h

/-- A piece that crosses bars leaves a fragment in each, with bars closed in between. -/
lemma Keeps.placeFrom (hg : g.Makes P) (h : Keeps P s) (stop : τ) (pitch : Option Int)
    (chord : Option ChordMark) (bars : Nat) (start : τ) :
    Keeps P (placeFrom g stop pitch chord bars start s) := by
  induction bars generalizing s start with
  | zero => exact h
  | succ bars ih =>
    unfold Scanner.placeFrom
    dsimp only
    split
    · have hplaced := (h.advance hg start (barsUpTo g start)).put hg start stop pitch chord
      split
      · exact hplaced
      · exact ih hplaced _
    · exact h

/-- An event is placed with as many bars as it may need. -/
lemma Keeps.place (hg : g.Makes P) (h : Keeps P s) (onset duration : τ) (pitch : Option Int)
    (chord : Option ChordMark) : Keeps P (s.place g onset duration pitch chord) :=
  h.placeFrom hg _ _ _ _ _

/-- All bars are filled. -/
lemma Keeps.finish (hg : g.Makes P) (h : Keeps P s) : Slot.Filled P (s.finish g) := by
  unfold Scanner.finish
  split
  · exact h.closed
  · rename_i first rest hcurrent
    dsimp only
    split
    · rename_i hmissing
      have hplaced : ∀ f ∈ first :: rest, P f := fun f hf =>
        h.current f (List.mem_reverse.mp (hcurrent ▸ hf))
      have hfilling := hg.filling first rest hplaced hmissing
      have hfull : Keeps P { s with current :=
          { offset := covered first rest, duration := g.length - covered first rest } ::
            s.current } :=
        ⟨h.number_eq, h.closed, List.forall_mem_cons.mpr ⟨hfilling, h.current⟩⟩
      exact (hfull.close hg).closed
    · exact (h.close hg).closed

end Scanner

/-! ## Whole voices -/

open Scanner

/-- Placing an event and the silence before it keeps what the scanner keeps. -/
lemma Grid.keeps_placeEvent (hg : g.Makes P) {state : Scanner τ × τ} (h : Keeps P state.1)
    (shift : τ) (e : Event τ) : Keeps P (g.placeEvent shift state e).1 := by
  obtain ⟨s, expected⟩ := state
  unfold Grid.placeEvent
  dsimp only
  split
  · exact (h.place hg _ _ _ _).place hg _ _ _ _
  · exact h.place hg _ _ _ _

/-- Placing all events of a voice keeps the property, and so does the silence between them. -/
lemma Grid.keeps_foldl_placeEvent (hg : g.Makes P) {state : Scanner τ × τ} (h : Keeps P state.1)
    (shift : τ) (events : List (Event τ)) :
    Keeps P (events.foldl (g.placeEvent shift) state).1 := by
  induction events generalizing state with
  | nil => exact h
  | cons e rest ih => exact ih (g.keeps_placeEvent hg h shift e)

/-- A bar stays as it is, or becomes an upbeat of the same number. -/
lemma Slot.padPickup_cases (g : Grid τ) (s : Slot τ) :
    s.padPickup g = s ∨ ((s.padPickup g).pickup = true ∧ (s.padPickup g).index = s.index ∧
      (s.padPickup g).fragments ≠ []) := by
  unfold Slot.padPickup
  split
  · exact .inl rfl
  · dsimp only
    split
    · exact .inl rfl
    · exact .inr ⟨rfl, rfl, List.cons_ne_nil _ _⟩

namespace Slot.Filled

variable {slots : List (Slot τ)}

/-- An upbeat is put in place of a bar that holds something. -/
lemma markPickup (h : Slot.Filled P slots) : Slot.Filled P (g.markPickup slots) := by
  cases slots with
  | nil => exact h
  | cons first rest =>
    have hne := h.fragments_ne_nil first List.mem_cons_self
    rw [Grid.markPickup]
    split
    · exact h.replaceHead rfl hne fun hnot => by cases hnot
    · split
      · exact h
      · obtain heq | ⟨hpickup, hindex, hne'⟩ := first.padPickup_cases g
        · rwa [heq]
        · exact h.replaceHead hindex hne' fun hnot => by simp [hpickup] at hnot

end Slot.Filled

/-- The bars of a voice are numbered from zero and hold what the grid makes. -/
theorem Grid.filled_cut (hg : g.Makes P) (events : List (Event τ)) :
    Slot.Filled P (g.cut events) := by
  unfold Grid.cut
  dsimp only
  refine ((g.keeps_foldl_placeEvent hg ?_ _ events).finish hg).markPickup.mark g
  -- The silence before an upbeat is placed first.
  split
  · exact keeps_start.place hg _ _ _ _
  · exact keeps_start

/-! ## Exact arithmetic -/

/-- Over bars that have a length, and a tolerance that is not negative, every voice has its bars. -/
lemma Grid.segment_eq_cut {g : Grid Rat} (hlength : 0 < g.length) (htolerance : 0 ≤ g.tolerance)
    (events : List (Event Rat)) : g.segment events = .ok (g.cut events) := by
  have hlength' : ¬ g.length ≤ Scalar.zero := not_le.mpr hlength
  have htolerance' : ¬ g.tolerance < Scalar.zero := not_lt.mpr htolerance
  rw [segment, if_neg hlength', if_neg htolerance']

/-- A fragment lasts and lies within a bar. -/
structure Fragment.Within (length : Rat) (f : Fragment Rat) : Prop where
  /-- It begins in the bar. -/
  offset_nonneg : 0 ≤ f.offset
  /-- It lasts. -/
  duration_pos : 0 < f.duration
  /-- It ends in the bar. -/
  stop_le : f.stop ≤ length

/-- No fragment ends later than all of them. -/
lemma Scanner.stop_le_covered {first f : Fragment Rat} {rest : List (Fragment Rat)}
    (hf : f ∈ first :: rest) : f.stop ≤ Scanner.covered first rest := by
  have hmax (rest : List (Fragment Rat)) (time : Rat) :
      time ≤ rest.foldl (fun time f => Scalar.max time f.stop) time ∧
        ∀ f ∈ rest, f.stop ≤ rest.foldl (fun time f => Scalar.max time f.stop) time := by
    induction rest generalizing time with
    | nil => exact ⟨le_rfl, fun _ h => absurd h List.not_mem_nil⟩
    | cons f rest ih =>
      obtain ⟨hstart, hrest⟩ := ih (Scalar.max time f.stop)
      have hlater := (Scalar.rat_max time f.stop).symm.le.trans hstart
      exact ⟨(le_max_left _ _).trans hlater,
        List.forall_mem_cons.mpr ⟨(le_max_right _ _).trans hlater, hrest⟩⟩
  obtain ⟨hfirst, hrest⟩ := hmax rest first.stop
  rcases List.mem_cons.mp hf with rfl | hf
  · exact hfirst
  · exact hrest f hf

/-- The open bar ends where the next one begins. -/
lemma Scanner.stop_eq (g : Grid Rat) (s : Scanner Rat) :
    s.stop g = (s.number + 1) * g.length := by
  rw [Scanner.stop, Scalar.rat_ofNat]
  push_cast
  rfl

/-- Over a tolerance that is not negative, a piece is cut where it or the open bar ends. -/
lemma Scanner.cut_eq {g : Grid Rat} (htolerance : 0 ≤ g.tolerance) (s : Scanner Rat) (stop : Rat) :
    s.cut g stop = min stop ((s.number + 1) * g.length) := by
  rw [Scanner.cut, Scanner.stop_eq, Scalar.rat_min]
  split
  · rename_i hlt
    have hlt' : (s.number + 1) * g.length + g.tolerance < stop := hlt
    exact (min_eq_right (by linarith)).symm
  · rfl

/-- What is made on a grid lies within a bar. -/
lemma Grid.makes_within {g : Grid Rat} (hlength : 0 < g.length) (htolerance : 0 ≤ g.tolerance) :
    g.Makes (Fragment.Within g.length) where
  wholeRest := ⟨le_rfl, hlength, (zero_add g.length).le⟩
  piece s start stop pitch chord hlasts := by
    have hbegin : s.start g ≤ Scalar.max start (s.start g) := by
      rw [Scalar.rat_max]
      exact le_max_right _ _
    have hend : s.cut g stop ≤ (s.number + 1) * g.length := by
      rw [Scanner.cut_eq htolerance]
      exact min_le_right _ _
    have hstart : s.start g = s.number * g.length := rfl
    refine ⟨sub_nonneg.mpr hbegin, sub_pos.mpr hlasts, ?_⟩
    rw [Fragment.stop]
    linarith
  filling first rest hplaced hmissing := by
    have hfirst := hplaced first List.mem_cons_self
    have hcovered : first.stop ≤ Scanner.covered first rest :=
      Scanner.stop_le_covered List.mem_cons_self
    have hstop : 0 < first.stop := add_pos_of_nonneg_of_pos hfirst.offset_nonneg hfirst.duration_pos
    exact ⟨(hstop.trans_le hcovered).le, htolerance.trans_lt hmissing,
      (add_sub_cancel _ g.length).le⟩

end PatternScore
