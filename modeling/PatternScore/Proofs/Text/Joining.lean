import Mathlib.Tactic
import PatternScore.Text.Blank

/-!
# Cutting what was joined

A text that is joined from pieces is cut back into them wherever the separator does not occur inside
a piece. `splitChars` is the cut of the library, `joinWith` the joining; the one exception is the
empty list of pieces, whose text is cut into a single empty piece.
-/

namespace PatternScore.Text

/-- Cutting at a predicate is the library's function of that name. -/
lemma splitChars_eq_splitOnP (sep : Char → Bool) (cs : List Char) :
    splitChars sep cs = cs.splitOnP sep := by
  induction cs with
  | nil => simp [splitChars]
  | cons c cs ih =>
    rw [splitChars, List.splitOnP_cons_eq_if_modifyHead, ih]
    by_cases hc : sep c
    · rw [if_pos hc, if_pos hc]
    · rw [if_neg hc, if_neg hc]
      obtain ⟨piece, rest, hsplit⟩ := List.exists_cons_of_ne_nil (List.splitOnP_ne_nil sep cs)
      rw [hsplit]
      rfl

/-- A text without separators is one piece. -/
lemma splitChars_eq_singleton {sep : Char → Bool} {cs : List Char}
    (h : ∀ c ∈ cs, sep c = false) : splitChars sep cs = [cs] := by
  rw [splitChars_eq_splitOnP]
  exact List.splitOnP_eq_singleton h

/-- The piece before the first separator comes first. -/
lemma splitChars_append_cons {sep : Char → Bool} {cs : List Char}
    (h : ∀ c ∈ cs, sep c = false) {c : Char} (hc : sep c = true) (more : List Char) :
    splitChars sep (cs ++ c :: more) = cs :: splitChars sep more := by
  rw [splitChars_eq_splitOnP, splitChars_eq_splitOnP]
  exact List.splitOnP_append_cons_of_forall_mem h c hc more

/-- Joined pieces are cut back into the same pieces, if there are any. -/
lemma splitChars_joinWith {sep : Char → Bool} {s : String} {c : Char} (hs : s.toList = [c])
    (hc : sep c = true) {pieces : List String} (hne : pieces ≠ [])
    (h : ∀ piece ∈ pieces, ∀ d ∈ piece.toList, sep d = false) :
    splitChars sep (joinWith s pieces).toList = pieces.map String.toList := by
  induction pieces with
  | nil => exact absurd rfl hne
  | cons piece rest ih =>
    have hpiece := h piece List.mem_cons_self
    cases rest with
    | nil => simpa [joinWith] using splitChars_eq_singleton hpiece
    | cons next rest =>
      have hrest := ih (by simp) fun p hp => h p (List.mem_cons_of_mem _ hp)
      simp only [joinWith, String.toList_append, hs, List.append_assoc, List.singleton_append]
      rw [splitChars_append_cons hpiece hc, hrest]
      rfl

/-- Joined pieces that are not empty are told apart by the joined text, no pieces included. -/
lemma joinWith_injective {s : String} {c : Char} (hs : s.toList = [c])
    {pieces others : List String}
    (hp : ∀ piece ∈ pieces, piece.toList ≠ [] ∧ c ∉ piece.toList)
    (ho : ∀ piece ∈ others, piece.toList ≠ [] ∧ c ∉ piece.toList)
    (h : joinWith s pieces = joinWith s others) : pieces = others := by
  -- The filter drops the one empty piece into which the text of no pieces is cut.
  have hcut : ∀ l : List String, (∀ piece ∈ l, piece.toList ≠ [] ∧ c ∉ piece.toList) →
      (splitChars (· == c) (joinWith s l).toList).filter (!·.isEmpty) = l.map String.toList := by
    intro l hl
    by_cases hnil : l = []
    · subst hnil
      rfl
    · have hsep : ∀ piece ∈ l, ∀ d ∈ piece.toList, (d == c) = false := by
        intro piece hmem d hd
        exact beq_false_of_ne fun hdc => (hl piece hmem).2 (hdc ▸ hd)
      rw [splitChars_joinWith hs (by simp) hnil hsep, List.filter_eq_self]
      intro cs hcs
      obtain ⟨piece, hmem, rfl⟩ := List.mem_map.mp hcs
      simpa using (hl piece hmem).1
  have hmap : pieces.map String.toList = others.map String.toList := by
    rw [← hcut pieces hp, h, hcut others ho]
  exact List.map_injective_iff.mpr (fun _ _ => String.toList_injective) hmap

/-- The characters of a joined text stand in a piece or in a separator. -/
lemma mem_toList_joinWith {s : String} {pieces : List String} {c : Char}
    (h : c ∈ (joinWith s pieces).toList) :
    c ∈ s.toList ∨ ∃ piece ∈ pieces, c ∈ piece.toList := by
  induction pieces with
  | nil => simp [joinWith] at h
  | cons piece rest ih =>
    cases rest with
    | nil => exact .inr ⟨piece, List.mem_cons_self, by simpa [joinWith] using h⟩
    | cons next rest =>
      simp only [joinWith, String.toList_append, List.mem_append] at h
      obtain (h | h) | h := h
      · exact .inr ⟨piece, List.mem_cons_self, h⟩
      · exact .inl h
      · obtain h | ⟨p, hp, hcp⟩ := ih h
        · exact .inl h
        · exact .inr ⟨p, List.mem_cons_of_mem _ hp, hcp⟩

end PatternScore.Text
