import PatternScore.Conversion.Bars
import PatternScore.Proofs.Notation.ReadBack

/-!
# Writer and reader agree

A bar whose notes have pitches reads back if all its tokens last, and is refused if one does not: a
length of zero is not positive, and the minus sign of a negative length is no digit. What the reader
accepts are such bars, so what is read can be written and read again. The check of a bar against its
written form therefore only reports tokens that do not last.
-/

namespace PatternScore.Bar

open Token Text

/-- Every note of the bar has a pitch. -/
def Pitched (bar : Bar) : Prop :=
  ∀ tok ∈ bar, tok.isMute = false

/-- Each note can be looked at. -/
instance (bar : Bar) : Decidable bar.Pitched :=
  List.decidableBAll _ _

/-- Every token of the bar lasts at least one unit. -/
def Lasts (bar : Bar) : Prop :=
  ∀ tok ∈ bar, 1 ≤ tok.units

/-- Each token can be looked at. -/
instance (bar : Bar) : Decidable bar.Lasts :=
  List.decidableBAll _ _

/-! ## What is accepted -/

/-- A cut text has a piece. -/
lemma splitChars_ne_nil (sep : Char → Bool) (cs : List Char) : splitChars sep cs ≠ [] := by
  rw [splitChars_eq_splitOnP]
  exact List.splitOnP_ne_nil _ _

/-- What sounds in a step that is read has a pitch. -/
lemma ne_nil_of_readSymbol? {cs : List Char} {pitches : List Int}
    (h : readSymbol? cs = some (some pitches)) : pitches ≠ [] := by
  rintro rfl
  unfold readSymbol? at h
  split at h
  · cases h
  · split at h
    · obtain ⟨read, hread, heq⟩ := Option.map_eq_some_iff.mp h
      obtain ⟨piece, rest, hcut⟩ := List.exists_cons_of_ne_nil (splitChars_ne_nil _ _)
      obtain rfl : read = [] := Option.some.inj heq
      rw [hcut, List.mapM_cons] at hread
      obtain ⟨_, -, hrest⟩ := Option.bind_eq_some_iff.mp hread
      obtain ⟨_, -, hcons⟩ := Option.bind_eq_some_iff.mp hrest
      cases hcons
    · cases h
  · obtain ⟨pitch, -, heq⟩ := Option.map_eq_some_iff.mp h
    cases heq

/-- A step that is read as a note has a pitch, since there is none without characters. -/
lemma ne_nil_of_readStep? {cs : List Char} {pitches : List Int} {weight : Nat}
    (h : readStep? cs = some (some pitches, weight)) : pitches ≠ [] := by
  unfold readStep? at h
  split at h
  · obtain ⟨sound, hsymbol, heq⟩ := Option.map_eq_some_iff.mp h
    cases heq
    exact ne_nil_of_readSymbol? hsymbol
  · obtain ⟨sound, hsymbol, hrest⟩ := Option.bind_eq_some_iff.mp h
    obtain ⟨n, -, heq⟩ := Option.bind_eq_some_iff.mp hrest
    cases heq
    exact ne_nil_of_readSymbol? hsymbol
  · cases h

/-- What is read from a step lasts, and it has a pitch if it is a note. -/
lemma isWritable_of_readToken {step : String} {tok : Token} (h : readToken step = .ok tok) :
    tok.IsWritable := by
  have hunits (weight : Nat) : (0 : Int) < (weight + 1 : Nat) := Int.natCast_pos.mpr weight.succ_pos
  unfold readToken at h
  rcases hstep : readStep? step.toList with _ | ⟨_ | pitches, _ | weight⟩ <;>
    rw [hstep] at h <;> cases h
  · exact ⟨hunits weight, rfl⟩
  · refine ⟨hunits weight, ?_⟩
    obtain ⟨pitch, rest, rfl⟩ := List.exists_cons_of_ne_nil (ne_nil_of_readStep? hstep)
    rfl

/-- What is refused is not in the notation. -/
lemma kind_of_readToken {step : String} {f : Failure} (h : readToken step = .error f) :
    f.kind = .literal := by
  unfold readToken at h
  split at h <;> cases h <;> rfl

/-! ## What is refused -/

/-- A length that is not positive is not read as one. -/
lemma readNat?_intChars_of_nonpos {n : Int} (h : n ≤ 0) :
    readNat? (intChars n) = none ∨ readNat? (intChars n) = some 0 := by
  obtain rfl | hneg := h.eq_or_lt
  · exact .inr (readNat?_natChars 0)
  · obtain ⟨m, rfl⟩ := Int.eq_negSucc_of_lt_zero hneg
    left
    rfl

/-- A token that does not last is refused. -/
lemma readToken_text_ne_ok {tok tok' : Token} (hpitch : tok.isMute = false) (h : tok.units < 1) :
    readToken tok.text ≠ .ok tok' := by
  have hunits : tok.units ≤ 0 := by omega
  rw [readToken, readStep?, splitChars_text]
  simp only [readSymbol?_symbolChars hpitch]
  obtain hnone | hzero := readNat?_intChars_of_nonpos hunits
  · simp [hnone]
  · simp [hzero]

/-! ## Bars -/

/-- Only bars whose notes have pitches and whose tokens last are read. -/
lemma of_read {text : String} {bar : Bar} (h : read text = .ok bar) : bar.Pitched ∧ bar.Lasts := by
  have hwritable : ∀ tok ∈ bar, tok.IsWritable := by
    intro tok htok
    obtain ⟨step, -, hstep⟩ := exists_mem_of_forall₂ (mapM_eq_ok_iff.mp h) htok
    exact isWritable_of_readToken hstep
  exact ⟨fun tok htok => (hwritable tok htok).not_mute,
    fun tok htok => (hwritable tok htok).units_pos⟩

/-- A bar whose notes have pitches is written. -/
lemma Pitched.write_eq {bar : Bar} (h : bar.Pitched) : bar.write = .ok bar.text := by
  have hmute : bar.any (·.isMute) = false := by
    rw [List.any_eq_false]
    intro tok htok
    simp [h tok htok]
  rw [write, hmute]
  rfl

/-- If its tokens last as well, it reads back. -/
lemma Pitched.read_text_eq {bar : Bar} (h : bar.Pitched) (hlasts : bar.Lasts) :
    read bar.text = .ok bar :=
  read_text fun tok htok => ⟨hlasts tok htok, h tok htok⟩

/-- If a token does not last, the bar is refused. -/
lemma Pitched.read_text_eq_error {bar : Bar} (h : bar.Pitched) (hlasts : ¬ bar.Lasts) :
    ∃ f, read bar.text = .error f ∧ f.kind = .literal := by
  cases hread : read bar.text with
  | error f =>
    obtain ⟨step, -, hstep⟩ := exists_of_mapM_eq_error hread
    exact ⟨f, rfl, kind_of_readToken hstep⟩
  | ok parsed =>
    obtain ⟨tok, htok, hshort⟩ : ∃ tok ∈ bar, tok.units < 1 := by
      simpa [Lasts] using hlasts
    rw [read, words_text, mapM_eq_ok_iff] at hread
    obtain ⟨tok', -, hstep⟩ :=
      exists_mem_of_forall₂ hread.flip (List.mem_map_of_mem htok)
    exact absurd hstep (readToken_text_ne_ok (h tok htok) hshort)

/-- Such a bar passes the check of its written form exactly if its tokens last. -/
lemma Pitched.readsBack_eq {bar : Bar} (h : bar.Pitched) :
    bar.readsBack = .ok (decide bar.Lasts) := by
  rw [readsBack, h.write_eq]
  by_cases hlasts : bar.Lasts
  · simp [h.read_text_eq hlasts, hlasts, bind, Except.bind, pure, Except.pure]
  · obtain ⟨f, hread, -⟩ := h.read_text_eq_error hlasts
    simp [hread, hlasts, bind, Except.bind, pure, Except.pure]

/-- The warnings about a bar whose notes have pitches: one about its written form if a token does
not last, and one about its length if that is wrong. -/
lemma Pitched.check_eq {τ : Type} {s : Slot τ} (h : Pitched s.tokens) (name : String) :
    s.check name = .ok ((if Lasts s.tokens then [] else [s.unreadable name]) ++
      if s.pickup || s.units == s.target then [] else [s.wrongLength name]) := by
  rw [Slot.check, h.readsBack_eq]
  by_cases hlasts : Lasts s.tokens <;> simp [hlasts, bind, Except.bind, pure, Except.pure]

/-! ## Both directions -/

/-- The writer and the reader of bars agree. A bar whose notes have pitches is written, and what is
written reads back as the bar if all tokens last and is refused otherwise. Every bar that is read
has such notes and such tokens, and reads back when it is written. So the warning about written
forms is given for exactly the bars that hold a token which does not last. -/
theorem write_agrees_with_read (τ : Type) :
    (∀ bar : Bar, bar.Pitched → ∃ text, bar.write = .ok text ∧
      (bar.Lasts → read text = .ok bar) ∧
      (¬ bar.Lasts → ∃ f, read text = .error f ∧ f.kind = .literal)) ∧
    (∀ (text : String) (bar : Bar), read text = .ok bar → bar.Pitched ∧ bar.Lasts ∧
      ∃ text', bar.write = .ok text' ∧ read text' = .ok bar) ∧
    (∀ (name : String) (s : Slot τ), Pitched s.tokens →
      s.check name = .ok ((if Lasts s.tokens then [] else [s.unreadable name]) ++
        if s.pickup || s.units == s.target then [] else [s.wrongLength name])) := by
  refine ⟨?_, ?_, ?_⟩
  · intro bar hbar
    exact ⟨bar.text, hbar.write_eq, hbar.read_text_eq, hbar.read_text_eq_error⟩
  · intro text bar hread
    obtain ⟨hpitched, hlasts⟩ := of_read hread
    exact ⟨hpitched, hlasts, bar.text, hpitched.write_eq, hpitched.read_text_eq hlasts⟩
  · intro name s hpitched
    exact hpitched.check_eq name

/-- A chord with a negative pitch that is followed by a rest of no length is refused; with the rest
left at its usual length it is read, and reads back. -/
theorem write_agrees_with_read_chord :
    (∃ text f, write [.note [0, -4] 2, .rest 0] = .ok text ∧ read text = .error f ∧
      f.kind = .literal) ∧
    (∃ text, read "[0,-4]@2 ~" = .ok [.note [0, -4] 2, .rest 1] ∧
      write [.note [0, -4] 2, .rest 1] = .ok text ∧
      read text = .ok [.note [0, -4] 2, .rest 1]) := by
  obtain ⟨hwritten, hread, -⟩ := write_agrees_with_read Rat
  constructor
  · obtain ⟨text, htext, -, hrefused⟩ := hwritten [.note [0, -4] 2, .rest 0] (by decide)
    obtain ⟨f, hf, hkind⟩ := hrefused (by decide)
    exact ⟨text, f, htext, hf, hkind⟩
  · have haccepted : read "[0,-4]@2 ~" = .ok [.note [0, -4] 2, .rest 1] := by decide +kernel
    obtain ⟨-, -, text, htext, hback⟩ := hread _ _ haccepted
    exact ⟨text, haccepted, htext, hback⟩

end PatternScore.Bar
