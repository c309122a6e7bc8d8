import PatternScore.Notation.Reader
import PatternScore.Proofs.Sequence
import PatternScore.Proofs.Text.Decimal
import PatternScore.Proofs.Text.Joining

/-!
# Bars read back as they were written

The written form of a token is its symbol, an at sign and its length. No symbol holds an at sign and
no written token white space, so a written bar is cut into its tokens and a token into symbol and
length. Symbols read back for all pitches; a length reads back if it is positive.
-/

namespace PatternScore

namespace Token

/-- The token lasts, and it has a pitch if it is a note. -/
structure IsWritable (tok : Token) : Prop where
  /-- It lasts. -/
  units_pos : 0 < tok.units
  /-- It is a rest or a note with a pitch. -/
  not_mute : tok.isMute = false

/-- What a token sounds, as it is read. -/
def symbol : Token → Option (List Int)
  | note pitches _ => some pitches
  | rest _ => none

/-- The characters before the at sign. -/
def symbolChars : Token → List Char
  | note [pitch] _ => Text.intChars pitch
  | note pitches _ => '[' :: ((Text.joinWith "," (pitches.map Text.int)).toList ++ [']'])
  | rest _ => ['~']

/-- A token is written as its symbol and its length. -/
lemma toList_text (tok : Token) :
    tok.text.toList = tok.symbolChars ++ '@' :: Text.intChars tok.units := by
  cases tok with
  | rest units => simp [text, symbolChars, Token.units]
  | note pitches units =>
    rcases pitches with _ | ⟨p, _ | ⟨q, rest⟩⟩ <;> simp [text, symbolChars, Token.units]

/-- Which characters a symbol is written with. -/
lemma mem_of_mem_symbolChars {tok : Token} {c : Char} (h : c ∈ tok.symbolChars) :
    c ∈ ['[', ']', ',', '~', '-', '0', '1', '2', '3', '4', '5', '6', '7', '8', '9'] := by
  have hint {n : Int} (hc : c ∈ Text.intChars n) :
      c ∈ ['[', ']', ',', '~', '-', '0', '1', '2', '3', '4', '5', '6', '7', '8', '9'] := by
    have := Text.mem_of_mem_intChars hc
    simp only [List.mem_cons, List.not_mem_nil, or_false] at this ⊢
    tauto
  have hchord {pitches : List Int}
      (hc : c ∈ '[' :: ((Text.joinWith "," (pitches.map Text.int)).toList ++ [']'])) :
      c ∈ ['[', ']', ',', '~', '-', '0', '1', '2', '3', '4', '5', '6', '7', '8', '9'] := by
    rcases List.mem_cons.mp hc with rfl | hc
    · decide
    rcases List.mem_append.mp hc with hc | hc
    · rcases Text.mem_toList_joinWith hc with hc | ⟨piece, hpiece, hc⟩
      · rw [show (",").toList = [','] from rfl, List.mem_singleton] at hc
        subst hc
        decide
      · obtain ⟨n, _, rfl⟩ := List.mem_map.mp hpiece
        rw [Text.toList_int] at hc
        exact hint hc
    · rw [List.mem_singleton.mp hc]
      decide
  cases tok with
  | rest units =>
    rw [List.mem_singleton.mp h]
    decide
  | note pitches units =>
    rcases pitches with _ | ⟨p, _ | ⟨q, rest⟩⟩
    · exact hchord h
    · exact hint h
    · exact hchord h

end Token

namespace Bar

open Token Text

/-- The pitches of a chord are cut at their commas. -/
lemma readPitches (pitches : List Int) (hne : pitches ≠ []) :
    (splitChars (· == ',') (joinWith "," (pitches.map Text.int)).toList).mapM readPitch? =
      some pitches := by
  have hcomma : ∀ piece ∈ pitches.map Text.int, ∀ d ∈ piece.toList, (d == ',') = false := by
    intro piece hpiece d hd
    obtain ⟨n, _, rfl⟩ := List.mem_map.mp hpiece
    rw [toList_int] at hd
    have := mem_of_mem_intChars hd
    revert this
    simp only [List.mem_cons, List.not_mem_nil, or_false]
    rintro (rfl | rfl | rfl | rfl | rfl | rfl | rfl | rfl | rfl | rfl | rfl) <;> rfl
  rw [splitChars_joinWith rfl rfl (by simpa using hne) hcomma]
  have htexts : (pitches.map Text.int).map String.toList = pitches.map intChars := by
    simp
  rw [htexts, List.mapM_map]
  have hread : pitches.mapM (readPitch? ∘ intChars) = some (pitches.map id) :=
    mapM_eq_some fun n _ => readPitch?_intChars n
  rw [hread, List.map_id]

/-- A chord in brackets reads back. -/
lemma readSymbol?_chord (pitches : List Int) (hne : pitches ≠ []) :
    readSymbol? ('[' :: ((joinWith "," (pitches.map Text.int)).toList ++ [']'])) =
      some (some pitches) := by
  have hreverse : ((joinWith "," (pitches.map Text.int)).toList ++ [']']).reverse =
      ']' :: (joinWith "," (pitches.map Text.int)).toList.reverse := by
    simp
  simp only [readSymbol?, hreverse, List.reverse_reverse, readPitches pitches hne]
  rfl

/-- A single pitch reads back. -/
lemma readSymbol?_intChars (pitch : Int) : readSymbol? (intChars pitch) = some (some [pitch]) := by
  obtain ⟨c, cs, hcs⟩ := List.exists_cons_of_ne_nil (intChars_ne_nil pitch)
  have hc : c ∈ intChars pitch := by
    rw [hcs]
    exact List.mem_cons_self
  have htilde : c ≠ '~' := by
    rintro rfl
    exact absurd (mem_of_mem_intChars hc) (by decide)
  have hbracket : c ≠ '[' := by
    rintro rfl
    exact absurd (mem_of_mem_intChars hc) (by decide)
  have hdefault : readSymbol? (intChars pitch) =
      (readPitch? (intChars pitch)).map fun pitch => some [pitch] := by
    rw [hcs, readSymbol?]
    · simpa using fun h _ => htilde h
    · simpa using fun h => hbracket h
  rw [hdefault, readPitch?_intChars]
  rfl

/-- Symbols read back. -/
lemma readSymbol?_symbolChars {tok : Token} (h : tok.isMute = false) :
    readSymbol? tok.symbolChars = some tok.symbol := by
  cases tok with
  | rest units => rfl
  | note pitches units =>
    rcases pitches with _ | ⟨p, _ | ⟨q, rest⟩⟩
    · cases h
    · exact readSymbol?_intChars p
    · exact readSymbol?_chord (p :: q :: rest) (List.cons_ne_nil _ _)

/-- The length of a token that lasts reads back. -/
lemma readNat?_intChars {n : Int} (h : 0 < n) : readNat? (intChars n) = some n.toNat := by
  obtain ⟨m, rfl⟩ := Int.eq_ofNat_of_zero_le h.le
  exact readNat?_natChars m

/-- A written token is cut into its symbol and its length. -/
lemma splitChars_text (tok : Token) :
    splitChars (· == '@') tok.text.toList = [tok.symbolChars, intChars tok.units] := by
  have hsymbol : ∀ c ∈ tok.symbolChars, (c == '@') = false := by
    intro c hc
    refine beq_false_of_ne ?_
    rintro rfl
    exact absurd (mem_of_mem_symbolChars hc) (by decide)
  have hunits : ∀ c ∈ intChars tok.units, (c == '@') = false := by
    intro c hc
    refine beq_false_of_ne ?_
    rintro rfl
    exact absurd (mem_of_mem_intChars hc) (by decide)
  rw [toList_text, splitChars_append_cons hsymbol rfl, splitChars_eq_singleton hunits]

/-- A token reads back. -/
lemma readToken_text {tok : Token} (h : tok.IsWritable) : readToken tok.text = .ok tok := by
  have hstep : readStep? tok.text.toList = some (tok.symbol, tok.units.toNat) := by
    rw [readStep?, splitChars_text]
    simp only [readSymbol?_symbolChars h.not_mute, readNat?_intChars h.units_pos]
    rfl
  have hunits := h.units_pos
  obtain ⟨n, hn⟩ : ∃ n, tok.units.toNat = n + 1 := ⟨tok.units.toNat - 1, by omega⟩
  have hcast : ((n + 1 : Nat) : Int) = tok.units := by omega
  rw [readToken, hstep, hn]
  cases tok with
  | rest units => simp only [symbol, hcast, Token.units]
  | note pitches units => simp only [symbol, hcast, Token.units]

/-- No written token holds white space. -/
lemma isBlank_text {tok : Token} {c : Char} (h : c ∈ tok.text.toList) : isBlank c = false := by
  have hplain : ['[', ']', ',', '~', '-', '0', '1', '2', '3', '4', '5', '6', '7', '8', '9',
      '@'].any isBlank = false := rfl
  refine Bool.eq_false_iff.mpr (List.any_eq_false.mp hplain c ?_)
  rw [toList_text] at h
  rcases List.mem_append.mp h with h | h
  · exact List.mem_append_left ['@'] (mem_of_mem_symbolChars h)
  · rcases List.mem_cons.mp h with rfl | h
    · simp
    · have := mem_of_mem_intChars h
      simp only [List.mem_cons, List.not_mem_nil, or_false] at this ⊢
      tauto

/-- The words of a written bar are its written tokens. -/
lemma words_text (bar : Bar) : words bar.text = bar.map Token.text := by
  cases bar with
  | nil => rfl
  | cons tok rest =>
    have hblank : ∀ piece ∈ (tok :: rest).map Token.text, ∀ d ∈ piece.toList,
        isBlank d = false := by
      intro piece hpiece d hd
      obtain ⟨tok', _, rfl⟩ := List.mem_map.mp hpiece
      exact isBlank_text hd
    have hcut := splitChars_joinWith (s := " ") rfl (by decide) (by simp) hblank
    have hfilter : ((((tok :: rest).map Token.text).map String.toList).filter (!·.isEmpty)) =
        ((tok :: rest).map Token.text).map String.toList := by
      rw [List.filter_eq_self]
      intro cs hcs
      simp only [List.map_map, List.mem_map] at hcs
      obtain ⟨tok', _, rfl⟩ := hcs
      simp [toList_text]
    rw [words, Bar.text, hcut, hfilter, List.map_map]
    simp

/-- A bar whose tokens last and whose notes have pitches reads back as it was written. -/
theorem read_text {bar : Bar} (h : ∀ tok ∈ bar, tok.IsWritable) : read bar.text = .ok bar := by
  have hread : (bar.map Token.text).mapM readToken = .ok bar := by
    rw [List.mapM_map]
    have hbar : bar.mapM (readToken ∘ Token.text) = .ok (bar.map id) :=
      mapM_eq_ok fun tok htok => readToken_text (h tok htok)
    rw [hbar, List.map_id]
  rw [read, words_text, hread]

end Bar

end PatternScore
