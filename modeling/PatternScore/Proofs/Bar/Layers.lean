import PatternScore.Proofs.Bar.FixedUnits
import PatternScore.Proofs.Tiling

/-!
# Bars written in layers

A bar of several staves is fully written if every fragment belongs to a layer of fragments that fill
the bar one after another; the layers may overlap each other in any way. Two things follow that the
layout needs. A unit that measures all durations measures all offsets and the bar
(`Layered.isWhole`), and where no note sounds, some rest holds that no note has broken since it
began (`Layered.exists_rest`).
-/

namespace PatternScore

/-- An instant of the bar belongs to a fragment. -/
def Fragment.Has (f : Fragment Rat) (time : Rat) : Prop :=
  f.offset ≤ time ∧ time < f.stop

namespace Slot

/-- Every fragment belongs to a layer of fragments that fill the bar one after another. -/
structure Layered (length : Rat) (fragments : List (Fragment Rat)) : Prop where
  /-- There are fragments. -/
  ne_nil : fragments ≠ []
  /-- The layer of a fragment. -/
  exists_layer : ∀ f ∈ fragments, ∃ layer, f ∈ layer ∧ (∀ g ∈ layer, g ∈ fragments) ∧
    Tiles Fragment.offset Fragment.stop 0 layer length

variable {length unit time : Rat} {fragments : List (Fragment Rat)} {f : Fragment Rat}

/-- A single layer. -/
lemma Layered.of_tiles (h : Tiles Fragment.offset Fragment.stop 0 fragments length)
    (hlength : 0 < length) : Layered length fragments := by
  refine ⟨?_, fun f hf => ⟨fragments, hf, fun _ hg => hg, h⟩⟩
  rintro rfl
  exact absurd (show (0 : Rat) = length from h) hlength.ne

/-- What follows without gaps is measured by a unit that measures every duration. -/
lemma isWhole_of_tiles {a b : Rat} {layer : List (Fragment Rat)}
    (h : Tiles Fragment.offset Fragment.stop a layer b) (ha : Units.IsWhole unit a)
    (hduration : ∀ f ∈ layer, Units.IsWhole unit f.duration) :
    (∀ f ∈ layer, Units.IsWhole unit f.offset) ∧ Units.IsWhole unit b := by
  induction layer generalizing a with
  | nil => exact ⟨fun _ h => absurd h List.not_mem_nil, (show a = b from h) ▸ ha⟩
  | cons f rest ih =>
    obtain ⟨rfl, -, hrest⟩ := h
    obtain ⟨hf, hothers⟩ := List.forall_mem_cons.mp hduration
    obtain ⟨hoffset, hend⟩ := ih hrest (ha.add hf) hothers
    exact ⟨List.forall_mem_cons.mpr ⟨ha, hoffset⟩, hend⟩

namespace Layered

/-- A fragment lasts and lies in the bar. -/
lemma within (h : Layered length fragments) (hf : f ∈ fragments) :
    0 ≤ f.offset ∧ f.offset < f.stop ∧ f.stop ≤ length := by
  obtain ⟨layer, hmem, -, htiles⟩ := h.exists_layer f hf
  exact htiles.mem hmem

/-- Every fragment lasts, as the parts of its layer do. -/
lemma duration_pos (h : Layered length fragments) (hf : f ∈ fragments) : 0 < f.duration := by
  have hlt := (h.within hf).2.1
  exact pos_of_lt_add_right hlt

/-- A unit that measures every duration measures every offset and the bar. -/
lemma isWhole (h : Layered length fragments)
    (hduration : ∀ f ∈ fragments, Units.IsWhole unit f.duration) :
    (∀ f ∈ fragments, Units.IsWhole unit f.offset) ∧ Units.IsWhole unit length := by
  have hlayer : ∀ f ∈ fragments, Units.IsWhole unit f.offset ∧ Units.IsWhole unit length := by
    intro f hf
    obtain ⟨layer, hmem, hsub, htiles⟩ := h.exists_layer f hf
    obtain ⟨hoffset, hend⟩ := isWhole_of_tiles htiles (Units.isWhole_zero unit) fun g hg =>
      hduration g (hsub g hg)
    exact ⟨hoffset f hmem, hend⟩
  obtain ⟨f, hf⟩ := List.exists_mem_of_ne_nil fragments h.ne_nil
  exact ⟨fun f hf => (hlayer f hf).1, (hlayer f hf).2⟩

/-- The bar has a length, as it has a fragment that lasts. -/
lemma length_pos (h : Layered length fragments) : 0 < length := by
  obtain ⟨f, hf⟩ := List.exists_mem_of_ne_nil fragments h.ne_nil
  obtain ⟨hbegin, hlasts, hend⟩ := h.within hf
  exact hbegin.trans_lt (hlasts.trans_le hend)

/-- The instants of the bar are those of its fragments. -/
lemma exists_has_iff (h : Layered length fragments) :
    (∃ f ∈ fragments, f.Has time) ↔ 0 ≤ time ∧ time < length := by
  constructor
  · rintro ⟨f, hf, hhas⟩
    obtain ⟨hbegin, -, hend⟩ := h.within hf
    exact ⟨hbegin.trans hhas.1, hhas.2.trans_le hend⟩
  · rintro ⟨hstart, hend⟩
    obtain ⟨f, hf⟩ := List.exists_mem_of_ne_nil fragments h.ne_nil
    obtain ⟨layer, -, hsub, htiles⟩ := h.exists_layer f hf
    obtain ⟨g, hg, hhas⟩ := htiles.exists_mem hstart hend
    exact ⟨g, hsub g hg, hhas⟩

/-- Where no note sounds there is a rest since whose start no note has begun. -/
lemma exists_rest (h : Layered length fragments) (hstart : 0 ≤ time) (hend : time < length)
    (hsilent : ∀ f ∈ fragments, f.Has time → f.isRest = true) :
    ∃ r ∈ fragments, r.isRest = true ∧ r.Has time ∧
      ∀ n ∈ fragments, n.isRest = false → ¬ (r.offset < n.offset ∧ n.offset ≤ time) := by
  classical
  obtain ⟨f, hf, hhas⟩ := h.exists_has_iff.mpr ⟨hstart, hend⟩
  set sounding := fragments.filter fun f => decide (f.Has time) with hsounding
  have hmem {g : Fragment Rat} : g ∈ sounding ↔ g ∈ fragments ∧ g.Has time := by simp [hsounding]
  -- The rest that has begun last: a note behind it would cut short a rest of its own layer.
  cases hlast : sounding.argmax Fragment.offset with
  | none =>
    rw [List.argmax_eq_none.mp hlast] at hmem
    exact absurd (hmem.mpr ⟨hf, hhas⟩) List.not_mem_nil
  | some r =>
    obtain ⟨hr, hrhas⟩ := hmem.mp (List.argmax_mem hlast)
    refine ⟨r, hr, hsilent r hr hrhas, hrhas, fun n hn hnote ⟨hlater, hbegun⟩ => ?_⟩
    obtain ⟨layer, hn', hsub, htiles⟩ := h.exists_layer n hn
    obtain ⟨r', hr', hrhas'⟩ := htiles.exists_mem hstart hend
    have hearlier : r'.offset ≤ r.offset :=
      List.le_of_mem_argmax (hmem.mpr ⟨hsub r' hr', hrhas'⟩) hlast
    have heq : n = r' := htiles.eq_of_mem hn' hr' ⟨le_rfl, (htiles.mem hn').2.1⟩
      ⟨(hearlier.trans_lt hlater).le, hbegun.trans_lt hrhas'.2⟩
    have hrest := hsilent r' (hsub r' hr') hrhas'
    rw [← heq, hnote] at hrest
    cases hrest

end Layered

end Slot

end PatternScore
