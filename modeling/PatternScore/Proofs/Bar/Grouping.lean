import PatternScore.Proofs.Bar.Forming
import PatternScore.Proofs.Bar.Measuring
import PatternScore.Proofs.Bar.Playing
import PatternScore.Proofs.Notation.Agreement

/-!
# The tokens of a measured bar

A measured bar is laid out as a line of spans, and its tokens are the spans with their lengths
divided by the common divisor of all of them (`Slot.GroupedAs`). Since the spans have the form of
tokens, the bar is well formed (`Bar.WellFormed`).
-/

namespace PatternScore

/-- The bar can be written, and it has the smallest lengths that are in its proportions. -/
structure Bar.WellFormed (bar : Bar) : Prop where
  /-- It holds a token. -/
  ne_nil : bar ≠ []
  /-- Its tokens last at least one unit. -/
  lasts : bar.Lasts
  /-- Nothing but one divides all its lengths. -/
  coprime : ∀ d : Nat, (∀ tok ∈ bar, (d : Int) ∣ tok.units) → d = 1
  /-- Its notes have pitches, which ascend. -/
  chords : ∀ pitches units, Token.note pitches units ∈ bar →
    pitches ≠ [] ∧ pitches.Pairwise (· < ·)

/-- The notes of a well-formed bar have pitches. -/
lemma Bar.WellFormed.pitched {bar : Bar} (h : bar.WellFormed) : bar.Pitched := by
  intro tok htok
  rcases tok with ⟨_ | ⟨p, rest⟩, units⟩ | units
  · exact absurd rfl (h.chords [] units htok).1
  · rfl
  · rfl

/-- The check of a well-formed bar can only warn about its length. -/
lemma Bar.WellFormed.check_eq {τ : Type} {s : Slot τ} (h : Bar.WellFormed s.tokens)
    (name : String) : s.check name =
      .ok (if s.pickup || s.units == s.target then [] else [s.wrongLength name]) := by
  rw [h.pitched.check_eq, if_pos h.lasts, List.nil_append]

namespace Slot

variable {τ : Type} {mode : ChordMode} {s s' : Slot τ}

/-- The fragments of a bar have at least one unit each, and there are some. -/
structure Counted (s : Slot τ) : Prop where
  /-- There is a fragment. -/
  ne_nil : s.fragments ≠ []
  /-- Every fragment has a unit. -/
  one_le : ∀ f ∈ s.fragments, 1 ≤ f.units

namespace Counted

/-- The line of a bar whose fragments last consists of well-formed spans. -/
lemma allFormed_laid (h : s.Counted) (mode : ChordMode) : Span.AllFormed (s.laid mode) :=
  (Span.formed_collect mode h.one_le).layOut

/-- The spans that counted fragments are laid out as last. -/
lemma lasting (h : s.Counted) (mode : ChordMode) : s.Lasting mode where
  ne_nil := Span.layOut_ne_nil (Span.collect_ne_nil mode h.ne_nil)
  units_pos x hx := (h.allFormed_laid mode x hx).units_pos

/-- Spans with their lengths divided make up a well-formed bar. -/
lemma wellFormed (h : s.Counted) (mode : ChordMode) :
    Bar.WellFormed ((s.laid mode).map fun x => x.token (x.units / s.divisor mode)) where
  ne_nil := mt List.map_eq_nil_iff.mp (h.lasting mode).ne_nil
  lasts := by
    refine List.forall_mem_map.mpr fun x hx => ?_
    rw [Span.units_token]
    exact Units.pos_ediv_commonDivisor (h.lasting mode).lengths_pos (List.mem_map_of_mem hx)
  coprime d hd := by
    have hone : (d : Int) ∣ 1 := by
      refine Units.dvd_one_of_dvd_ediv (h.lasting mode).lengths_ne_nil (h.lasting mode).lengths_pos
        (List.forall_mem_map.mpr ?_)
      intro x hx
      have := List.forall_mem_map.mp hd x hx
      rwa [Span.units_token] at this
    exact Nat.dvd_one.mp (Int.natCast_dvd_natCast.mp hone)
  chords pitches units hnote := by
    obtain ⟨x, hx, heq⟩ := List.mem_map.mp hnote
    have hformed := h.allFormed_laid mode x hx
    unfold Span.token at heq
    split at heq
    · cases heq
    · rename_i hrest
      cases heq
      exact ⟨hformed.pitches_ne_nil (by simpa using hrest), hformed.ascending⟩

end Counted

/-- A bar is as before, with the tokens of its line. -/
structure GroupedAs (mode : ChordMode) (s s' : Slot τ) : Prop where
  /-- It has the number of before. -/
  index_eq : s'.index = s.index
  /-- It is an upbeat if it was one. -/
  pickup_eq : s'.pickup = s.pickup
  /-- It has the fragments of before. -/
  fragments_eq : s'.fragments = s.fragments
  /-- Its tokens are the spans of its line. -/
  tokens_eq : s'.tokens = (s.laid mode).map fun x => x.token (x.units / s.divisor mode)

variable [Scalar τ]

/-- A measured bar gets the tokens of its line. -/
theorem groupedAs_group (hcounted : s.Counted) (h : s.group mode = .ok s') :
    s.GroupedAs mode s' := by
  unfold group at h
  dsimp only at h
  rw [← laid, (hcounted.lasting mode).filter_laid, (hcounted.lasting mode).zipWith_laid] at h
  split at h
  · cases h
    exact ⟨rfl, rfl, rfl, rfl⟩
  · obtain ⟨factor, -, h⟩ := exists_of_bind_eq_ok h
    obtain ⟨target, -, h⟩ := exists_of_bind_eq_ok h
    cases h
    exact ⟨rfl, rfl, rfl, rfl⟩

/-- A bar without fragments gets no tokens. -/
lemma group_of_nil (h : s.fragments = []) (mode : ChordMode) :
    s.group mode = .ok { s with tokens := [] } := by
  unfold group
  rw [← laid, laid_of_nil h]
  rfl

/-- A bar whose fragments last, if it has any, is brought to the units of its tokens, and these are
the spans of its line. -/
theorem exists_group_eq_coarsen (h : ∀ f ∈ s.fragments, 1 ≤ f.units) (mode : ChordMode) :
    ∃ divisor : Int, 0 < divisor ∧ (∀ x ∈ s.laid mode, divisor ∣ x.units) ∧
      s.group mode = (s.coarsen divisor).map fun s' => { s' with
        tokens := (s.laid mode).map fun x => x.token (x.units / divisor) } := by
  by_cases hne : s.fragments = []
  · have hlaid := laid_of_nil hne mode
    refine ⟨1, one_pos, by simp [hlaid], ?_⟩
    rw [group_of_nil hne, coarsen, if_pos rfl, hlaid]
    rfl
  · have hlasting := Counted.lasting ⟨hne, h⟩ mode
    exact ⟨s.divisor mode, hlasting.divisor_pos, fun x hx => divisor_dvd hx,
      hlasting.group_eq_coarsen⟩

/-- The fragments of a bar that was measured are counted. -/
lemma MeasuredAs.counted {m : Measure τ} (h : s.MeasuredAs m s') (hne : s.fragments ≠ []) :
    s'.Counted := by
  constructor
  · intro hnil
    have hlength := h.fragments.length_eq
    rw [hnil, List.length_nil] at hlength
    exact hne (List.length_eq_zero_iff.mp hlength)
  · intro f' hf'
    obtain ⟨f, -, hf⟩ := exists_mem_of_forall₂ h.fragments hf'
    exact hf.one_le_units

end Slot

end PatternScore
