import PatternScore.Proofs.Text.Decimal
import PatternScore.Proofs.Text.Joining

/-!
# Keys of bars

Bars are looked up by their keys, which are texts. Cutting a key at its spaces, each piece at its
colon and the pitches at their commas gives the bar back, so two bars of one key are the same bar,
whatever pitches and lengths they hold.
-/

namespace PatternScore

open Text

namespace Token

/-- What stands before the colon in the key of a token. -/
def keySymbol : Token → String
  | note pitches _ => joinWith "," (pitches.map Text.int)
  | rest _ => "~"

/-- The key of a token is what it sounds, a colon and its length. -/
lemma key_eq (t : Token) : t.key = t.keySymbol ++ ":" ++ Text.int t.units := by
  cases t with
  | note pitches units => rfl
  | rest units =>
    apply String.toList_injective
    simp [key, keySymbol, Token.units]

/-! ## Characters -/

/-- The characters before the colon. -/
lemma mem_of_mem_keySymbol {t : Token} {c : Char} (h : c ∈ t.keySymbol.toList) :
    c ∈ ['~', ',', '-', '0', '1', '2', '3', '4', '5', '6', '7', '8', '9'] := by
  cases t with
  | note pitches units =>
    obtain h | ⟨piece, hp, hc⟩ := mem_toList_joinWith h
    · obtain rfl : c = ',' := by simpa using h
      decide
    · obtain ⟨p, -, rfl⟩ := List.mem_map.mp hp
      rw [toList_int] at hc
      exact List.mem_cons_of_mem _ (List.mem_cons_of_mem _ (mem_of_mem_intChars hc))
  | rest units =>
    obtain rfl : c = '~' := by simpa [keySymbol] using h
    decide

/-- No key of a token holds a space. -/
lemma space_notMem_key (t : Token) : ' ' ∉ t.key.toList := by
  intro h
  rw [key_eq] at h
  simp only [String.toList_append, List.mem_append] at h
  obtain (h | h) | h := h
  · exact absurd (mem_of_mem_keySymbol h) (by decide)
  · exact absurd h (by decide)
  · rw [toList_int] at h
    exact absurd (mem_of_mem_intChars h) (by decide)

/-- The key of a token is not empty, since there is a colon in it. -/
lemma key_toList_ne_nil (t : Token) : t.key.toList ≠ [] := by
  rw [key_eq]
  simp

/-! ## Tokens by their keys -/

/-- Integers between commas are told apart, no integers included. -/
lemma joinWith_int_injective {pitches others : List Int}
    (h : joinWith "," (pitches.map Text.int) = joinWith "," (others.map Text.int)) :
    pitches = others := by
  have hpieces : ∀ l : List Int, ∀ piece ∈ l.map Text.int,
      piece.toList ≠ [] ∧ ',' ∉ piece.toList := by
    intro l piece hmem
    obtain ⟨p, -, rfl⟩ := List.mem_map.mp hmem
    rw [toList_int]
    exact ⟨intChars_ne_nil p, fun hc => absurd (mem_of_mem_intChars hc) (by decide)⟩
  have hmap := joinWith_injective rfl (hpieces pitches) (hpieces others) h
  exact List.map_injective_iff.mpr int_injective hmap

/-- Pitches are not written as a tilde. -/
lemma joinWith_int_ne_tilde (pitches : List Int) : joinWith "," (pitches.map Text.int) ≠ "~" := by
  intro h
  have hmem : '~' ∈ (joinWith "," (pitches.map Text.int)).toList := by
    rw [h]
    decide
  obtain hc | ⟨piece, hpiece, hc⟩ := mem_toList_joinWith hmem
  · exact absurd hc (by decide)
  · obtain ⟨p, -, rfl⟩ := List.mem_map.mp hpiece
    rw [toList_int] at hc
    exact absurd (mem_of_mem_intChars hc) (by decide)

/-- A token is told by its symbol and its length. -/
lemma eq_of_keySymbol_eq {t u : Token} (h : t.keySymbol = u.keySymbol)
    (hunits : t.units = u.units) : t = u := by
  cases t with
  | note pitches units =>
    cases u with
    | note others units' =>
      rw [joinWith_int_injective h]
      exact congrArg _ hunits
    | rest units' => exact absurd h (joinWith_int_ne_tilde pitches)
  | rest units =>
    cases u with
    | note others units' => exact absurd h.symm (joinWith_int_ne_tilde others)
    | rest units' => exact congrArg _ hunits

/-- Tokens are told apart by their keys. -/
lemma key_injective : Function.Injective key := by
  intro t u h
  have hcolon : ∀ v : Token,
      splitChars (· == ':') v.key.toList = [v.keySymbol.toList, intChars v.units] := by
    intro v
    rw [key_eq]
    simp only [String.toList_append, toList_int, List.append_assoc]
    have hsymbol : ∀ c ∈ v.keySymbol.toList, (c == ':') = false := by
      intro c hc
      exact beq_false_of_ne fun h => absurd (mem_of_mem_keySymbol (h ▸ hc)) (by decide)
    have hunits : ∀ c ∈ intChars v.units, (c == ':') = false := by
      intro c hc
      exact beq_false_of_ne fun h => absurd (mem_of_mem_intChars (h ▸ hc)) (by decide)
    calc splitChars (· == ':') (v.keySymbol.toList ++ ':' :: intChars v.units)
        = v.keySymbol.toList :: splitChars (· == ':') (intChars v.units) :=
          splitChars_append_cons hsymbol rfl _
      _ = [v.keySymbol.toList, intChars v.units] := by rw [splitChars_eq_singleton hunits]
  have hboth := hcolon t
  rw [h, hcolon u] at hboth
  simp only [List.cons.injEq, and_true] at hboth
  exact eq_of_keySymbol_eq (String.toList_injective hboth.1.symm)
    (intChars_injective hboth.2.symm)

end Token

/-- Bars are told apart by their keys. -/
lemma Bar.key_injective : Function.Injective Bar.key := by
  intro bar other h
  have hkeys : ∀ b : Bar, ∀ piece ∈ b.map Token.key, piece.toList ≠ [] ∧ ' ' ∉ piece.toList := by
    intro b piece hmem
    obtain ⟨t, -, rfl⟩ := List.mem_map.mp hmem
    exact ⟨t.key_toList_ne_nil, t.space_notMem_key⟩
  have hmap := joinWith_injective rfl (hkeys bar) (hkeys other) h
  exact List.map_injective_iff.mpr Token.key_injective hmap

end PatternScore
