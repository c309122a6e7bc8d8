import PatternScore.Proofs.Notation.Agreement
import PatternScore.Proofs.Text.Delimited

/-!
# The text of a program tells what is played

No two compositions that play different music are written as the same text. Bars are told apart by
their literals, patterns by their texts (`Node.text_append_inj`), declarations by their lines, and
the lines of a text by what they begin with: comments, the tempo, a blank line, the bar arrays, a
blank line and the section arrays if there are any, a blank line and the program. Names must not
hold the characters by which a text is punctuated, and strings must not break lines; nothing else is
asked of a composition, and its title and its comments may be anything.
-/

namespace PatternScore

open Text

/-! ## Names and lines -/

/-- The characters by which the text of a program is punctuated. -/
def punctuation : List Char :=
  [' ', '\n', '"', '(', ')', ',', '.', ';', '=', '[', ']']

/-- A name without punctuation, such as one of letters, digits and underscores. -/
def IsWord (s : String) : Prop :=
  ∀ c ∈ s.toList, c ∉ punctuation

/-- Each character can be looked at. -/
instance (s : String) : Decidable (IsWord s) :=
  List.decidableBAll _ _

/-- A text without line feeds. -/
def OneLine (s : String) : Prop :=
  '\n' ∉ s.toList

/-- Line feeds can be searched for. -/
instance (s : String) : Decidable (OneLine s) :=
  inferInstanceAs (Decidable (¬ _))

/-- Words break no line, since line feeds are punctuation. -/
lemma IsWord.oneLine {s : String} (h : IsWord s) : OneLine s :=
  fun hmem => h '\n' hmem (by decide)

/-- A word ends before the first punctuation behind it. -/
lemma IsWord.append_inj {s t : String} (hs : IsWord s) (ht : IsWord t) {c d : Char}
    (hc : c ∈ punctuation) (hd : d ∈ punctuation) {xs ys : List Char}
    (h : s.toList ++ c :: xs = t.toList ++ d :: ys) : s = t ∧ c = d ∧ xs = ys := by
  obtain ⟨hword, hmark, hrest⟩ := append_cons_inj (· ∈ punctuation) hs ht hc hd h
  exact ⟨String.toList_injective hword, hmark, hrest⟩

/-- Two texts that break no line do not together. -/
lemma OneLine.append {s t : String} (hs : OneLine s) (ht : OneLine t) : OneLine (s ++ t) := by
  intro h
  rw [String.toList_append] at h
  exact (List.mem_append.mp h).elim hs ht

/-- Neither do several, if what stands between them does not. -/
lemma OneLine.joinWith {sep : String} (hsep : OneLine sep) {pieces : List String}
    (h : ∀ piece ∈ pieces, OneLine piece) : OneLine (joinWith sep pieces) := by
  intro hmem
  obtain hmem | ⟨piece, hpiece, hmem⟩ := mem_toList_joinWith hmem
  · exact hsep hmem
  · exact h piece hpiece hmem

/-- Escaping a text adds no line feed to it. -/
lemma OneLine.literal {s : String} (h : OneLine s) : OneLine (literal s) := by
  intro hmem
  obtain heq | heq | hmem := mem_literal hmem
  · exact absurd heq (by decide)
  · exact absurd heq (by decide)
  · exact h hmem

/-- Numbers break no line. -/
lemma oneLine_int (n : Int) : OneLine (Text.int n) := by
  intro h
  rw [toList_int] at h
  exact absurd (mem_of_mem_intChars h) (by decide)

/-! ## Bars -/

/-- Tokens that can be written are told apart by their texts, whatever their lengths are. -/
lemma Token.eq_of_text_eq {tok other : Token} (h : tok.isMute = false) (h' : other.isMute = false)
    (htext : tok.text = other.text) : tok = other := by
  have hcut := Bar.splitChars_text tok
  rw [htext, Bar.splitChars_text other] at hcut
  simp only [List.cons.injEq, and_true] at hcut
  have hsymbol := Bar.readSymbol?_symbolChars h
  rw [← hcut.1, Bar.readSymbol?_symbolChars h', Option.some.injEq] at hsymbol
  have hunits := intChars_injective hcut.2
  cases tok <;> cases other <;> simp_all [symbol, Token.units]

namespace Bar

/-- Bars that can be written are told apart by their texts, whatever the lengths in them are. -/
lemma Pitched.eq_of_text_eq {bar other : Bar} (h : bar.Pitched) (h' : other.Pitched)
    (htext : bar.text = other.text) : bar = other := by
  have hpieces : ∀ b : Bar, ∀ piece ∈ b.map Token.text, piece.toList ≠ [] ∧ ' ' ∉ piece.toList := by
    intro b piece hpiece
    obtain ⟨tok, -, rfl⟩ := List.mem_map.mp hpiece
    refine ⟨by simp [Token.toList_text], fun hspace => ?_⟩
    exact absurd (isBlank_text hspace) (by decide)
  have hmap := joinWith_injective rfl (hpieces bar) (hpieces other) htext
  clear htext
  induction bar generalizing other with
  | nil => exact (List.map_eq_nil_iff.mp hmap.symm).symm
  | cons tok bar ih =>
    cases other with
    | nil => cases hmap
    | cons tok' other =>
      obtain ⟨hhead, hrest⟩ := List.cons.inj hmap
      obtain ⟨htok, hbar⟩ := List.forall_mem_cons.mp h
      obtain ⟨htok', hother⟩ := List.forall_mem_cons.mp h'
      rw [Token.eq_of_text_eq htok htok' hhead, ih hbar hother hrest]

/-- Bar literals break no line. -/
lemma oneLine_text (bar : Bar) : OneLine bar.text := by
  refine OneLine.joinWith (by decide) fun piece hpiece hmem => ?_
  obtain ⟨tok, -, rfl⟩ := List.mem_map.mp hpiece
  exact absurd (isBlank_text hmem) (by decide)

end Bar

/-! ## Patterns -/

namespace Node

/-- The names in a pattern are words, and the sounds in it break no line. -/
inductive Plain : Node → Prop where
  /-- A bar of an array. -/
  | bar {array : String} {index : Int} : IsWord array → Plain (.bar array index)
  /-- A section. -/
  | sectionRef {name : String} : IsWord name → Plain (.sectionRef name)
  /-- Patterns one after another. -/
  | cat {items : List Node} : (∀ item ∈ items, Plain item) → Plain (.cat items)
  /-- Patterns together. -/
  | stack {items : List Node} : (∀ item ∈ items, Plain item) → Plain (.stack items)
  /-- A pattern with a sound. -/
  | voiced {pattern : Node} {sound : String} :
      Plain pattern → OneLine sound → Plain (.voiced pattern sound)

/-- The texts of some patterns are the text of each. -/
lemma texts_eq_map (items : List Node) : texts items = items.map text := by
  induction items with
  | nil => rfl
  | cons item rest ih => rw [texts, ih, List.map_cons]

/-- A plain pattern is written in one line. -/
lemma Plain.oneLine {node : Node} (h : node.Plain) : OneLine node.text := by
  have hitems : ∀ {items : List Node}, (∀ item ∈ items, OneLine item.text) →
      OneLine (joinWith ", " (texts items)) := by
    intro items hall
    rw [texts_eq_map]
    refine OneLine.joinWith (by decide) fun piece hpiece => ?_
    obtain ⟨item, hitem, rfl⟩ := List.mem_map.mp hpiece
    exact hall item hitem
  induction h with
  | bar harray =>
    rw [text]
    exact ((harray.oneLine.append (by decide)).append (oneLine_int _)).append (by decide)
  | sectionRef hname =>
    rw [text]
    exact (OneLine.append (by decide) hname.oneLine).append (by decide)
  | cat _ ih =>
    rw [text]
    exact (OneLine.append (by decide) (hitems ih)).append (by decide)
  | stack _ ih =>
    rw [text]
    exact (OneLine.append (by decide) (hitems ih)).append (by decide)
  | voiced _ hsound ih =>
    rw [text]
    exact ((ih.append (by decide)).append hsound.literal).append (by decide)

/-- A pattern without the sounds of its own. -/
def core : Node → Node
  | voiced pattern _ => core pattern
  | node => node

/-- The sounds of its own that a pattern has, the outermost last. -/
def sounds : Node → List String
  | voiced pattern sound => sounds pattern ++ [sound]
  | _ => []

/-- A pattern is known by what it is without its sounds and by these. -/
lemma eq_of_core_eq {a b : Node} (hcore : a.core = b.core) (hsounds : a.sounds = b.sounds) :
    a = b := by
  have hbuild : ∀ n : Node, n.sounds.foldl voiced n.core = n := by
    intro n
    induction n using core.induct with
    | case1 pattern sound ih => rw [sounds, core, List.foldl_append, ih]; rfl
    | case2 n hn =>
      cases n with
      | voiced pattern sound => exact absurd rfl (hn pattern sound)
      | _ => rfl
  rw [← hbuild a, hcore, hsounds, hbuild b]

/-- The characters that call a sound on a pattern. -/
def call : List Char :=
  ['.', 's', '(']

/-- The texts of some sounds, called one after another. -/
def calls (sounds : List String) : List Char :=
  sounds.flatMap fun sound => call ++ ((literal sound).toList ++ [')'])

/-- A pattern is written as what it is without its sounds, and the calls of these. -/
lemma toList_text_eq (n : Node) : n.text.toList = n.core.text.toList ++ calls n.sounds := by
  induction n using core.induct with
  | case1 pattern sound ih =>
    have hcall : ".s(".toList = call := rfl
    have hclose : ")".toList = [')'] := rfl
    rw [text, core, sounds, calls, List.flatMap_append, ← calls]
    simp only [String.toList_append, ih, hcall, hclose, List.flatMap_cons, List.flatMap_nil,
      List.append_assoc, List.append_nil]
  | case2 n hn =>
    have hplain : n.core = n ∧ n.sounds = [] := by
      cases n with
      | voiced pattern sound => exact absurd rfl (hn pattern sound)
      | _ => exact ⟨rfl, rfl⟩
    rw [hplain.1, hplain.2]
    simp [calls]

/-- Calls of sounds end where no call follows. -/
lemma calls_append_inj {sounds others : List String} {xs ys : List Char} (hxs : ¬ call <+: xs)
    (hys : ¬ call <+: ys) (h : calls sounds ++ xs = calls others ++ ys) :
    sounds = others ∧ xs = ys := by
  have hcons : ∀ (sound : String) (rest : List String) (more : List Char),
      calls (sound :: rest) ++ more =
        call ++ ((literal sound).toList ++ ')' :: (calls rest ++ more)) := by
    intro sound rest more
    simp [calls]
  induction sounds generalizing others with
  | nil =>
    cases others with
    | nil => exact ⟨rfl, h⟩
    | cons other others =>
      rw [hcons] at h
      exact absurd ⟨_, h.symm⟩ hxs
  | cons sound sounds ih =>
    cases others with
    | nil =>
      rw [hcons] at h
      exact absurd ⟨_, h⟩ hys
    | cons other others =>
      rw [hcons, hcons, List.append_cancel_left_eq] at h
      obtain ⟨rfl, hrest⟩ := literal_append_inj h
      obtain ⟨rfl, hmore⟩ := ih (List.cons.inj hrest).2
      exact ⟨rfl, hmore⟩

/-- A pattern without sounds of its own is written as a word, a bracket and what this opens. -/
inductive Opens : Node → String → Char → List Char → Prop where
  /-- A bar: the name of its array, and its number. -/
  | bar {array : String} {index : Int} : IsWord array →
      Opens (.bar array index) array '[' (intChars index ++ [']'])
  /-- A section: the array spread out in a call. -/
  | sectionRef {name : String} : IsWord name →
      Opens (.sectionRef name) "cat" '(' ('.' :: '.' :: '.' :: (name.toList ++ [')']))
  /-- A call on patterns one after another. -/
  | cat {items : List Node} : (∀ item ∈ items, item.Plain) →
      Opens (.cat items) "cat" '(' ((joinWith ", " (items.map text)).toList ++ [')'])
  /-- A call on patterns together. -/
  | stack {items : List Node} : (∀ item ∈ items, item.Plain) →
      Opens (.stack items) "stack" '(' ((joinWith ", " (items.map text)).toList ++ [')'])

namespace Opens

variable {n m : Node} {word word' : String} {bracket bracket' : Char} {inner inner' : List Char}

/-- Such a pattern is written as its opening says. -/
lemma toList_text (h : n.Opens word bracket inner) :
    n.text.toList = word.toList ++ bracket :: inner := by
  cases h <;> simp [text, texts_eq_map]

/-- It is written with a word before the bracket. -/
lemma isWord (h : n.Opens word bracket inner) : IsWord word := by
  cases h with
  | bar harray => exact harray
  | sectionRef => decide
  | cat => decide
  | stack => decide

/-- What opens is a square bracket or a round one. -/
lemma bracket_mem (h : n.Opens word bracket inner) : bracket ∈ ['[', '('] := by
  cases h <;> simp

/-- Word and bracket are seen at the front of a text. -/
lemma append_inj (h : n.Opens word bracket inner) (h' : m.Opens word' bracket' inner')
    {xs ys : List Char} (heq : n.text.toList ++ xs = m.text.toList ++ ys) :
    word = word' ∧ bracket = bracket' ∧ inner ++ xs = inner' ++ ys := by
  have hstop : ∀ c ∈ ['[', '('], c ∈ punctuation := by simp [punctuation]
  rw [h.toList_text, h'.toList_text, List.append_assoc, List.append_assoc, List.cons_append,
    List.cons_append] at heq
  exact h.isWord.append_inj h'.isWord (hstop _ h.bracket_mem) (hstop _ h'.bracket_mem) heq

/-- The text does not begin like the reference to a section inside a bracket, nor with the end of a
list. -/
lemma head?_ne (h : n.Opens word bracket inner) {c : Char} (hc : c ∈ ['.', ')', ']'])
    (more : List Char) : (n.text.toList ++ more).head? ≠ some c := by
  have hpunctuation : c ∈ punctuation ∧ c ∉ ['[', '('] := by
    have hall : ∀ d ∈ ['.', ')', ']'], d ∈ punctuation ∧ d ∉ ['[', '('] := by simp [punctuation]
    exact hall c hc
  rw [h.toList_text]
  have hword := h.isWord
  unfold IsWord at hword
  cases hchars : word.toList with
  | nil =>
    intro heq
    have hsame : bracket = c := by simpa using heq
    exact hpunctuation.2 (hsame ▸ h.bracket_mem)
  | cons d ds =>
    intro heq
    have hsame : d = c := by simpa using heq
    exact hword d (by simp [hchars]) (hsame ▸ hpunctuation.1)

end Opens

/-- Without its sounds a pattern opens a bracket. -/
lemma Plain.exists_opens {n : Node} (h : n.Plain) :
    ∃ word bracket inner, n.core.Opens word bracket inner := by
  induction h with
  | bar harray => exact ⟨_, _, _, .bar harray⟩
  | sectionRef hname => exact ⟨_, _, _, .sectionRef hname⟩
  | cat hitems => exact ⟨_, _, _, .cat hitems⟩
  | stack hitems => exact ⟨_, _, _, .stack hitems⟩
  | voiced _ _ ih => exact ih

/-- A plain pattern does not begin with what can only follow one. -/
lemma Plain.head?_ne {n : Node} (h : n.Plain) {c : Char} (hc : c ∈ ['.', ')', ']'])
    (more : List Char) : (n.text.toList ++ more).head? ≠ some c := by
  obtain ⟨word, bracket, inner, hopens⟩ := h.exists_opens
  rw [toList_text_eq, List.append_assoc]
  exact hopens.head?_ne hc _

/-- Patterns in a list do not begin like the reference to a section. -/
lemma head?_items_ne {items : List Node} (h : ∀ item ∈ items, item.Plain) (more : List Char) :
    ((joinWith ", " (items.map text)).toList ++ ')' :: more).head? ≠ some '.' := by
  cases items with
  | nil => simp [joinWith]
  | cons item rest =>
    have hitem := h item List.mem_cons_self
    cases rest with
    | nil => exact hitem.head?_ne (by decide) _
    | cons next rest =>
      simp only [List.map_cons, joinWith, String.toList_append, List.append_assoc]
      exact hitem.head?_ne (by decide) _

/-- Patterns are told apart where no call of a sound follows, if they are without their sounds. -/
lemma append_inj_of_core {a b : Node} {xs ys : List Char} (hxs : ¬ call <+: xs)
    (hys : ¬ call <+: ys)
    (hcore : ∀ {xs ys : List Char}, a.core.text.toList ++ xs = b.core.text.toList ++ ys →
      a.core = b.core ∧ xs = ys)
    (h : a.text.toList ++ xs = b.text.toList ++ ys) : a = b ∧ xs = ys := by
  rw [toList_text_eq a, toList_text_eq b, List.append_assoc, List.append_assoc] at h
  obtain ⟨hsame, hcalls⟩ := hcore h
  obtain ⟨hsounds, hrest⟩ := calls_append_inj hxs hys hcalls
  exact ⟨eq_of_core_eq hsame hsounds, hrest⟩

/-- No sound is called where a list goes on or is closed. -/
lemma not_call_of_goesOn {xs : List Char} (h : GoesOn ')' xs) : ¬ call <+: xs := by
  rintro ⟨more, rfl⟩
  obtain h | h := h <;> simp [call] at h

/-- Lists of patterns in brackets are told apart, if their patterns are without their sounds. -/
lemma items_append_inj {items others : List Node} {xs ys : List Char}
    (hitems : ∀ item ∈ items, item.Plain) (hothers : ∀ item ∈ others, item.Plain)
    (hcore : ∀ a ∈ items, ∀ {n : Node} {word : String} {bracket : Char}
      {inner xs ys : List Char}, n.Opens word bracket inner →
      a.core.text.toList ++ xs = n.text.toList ++ ys → a.core = n ∧ xs = ys)
    (h : (joinWith ", " (items.map text)).toList ++ [')'] ++ xs =
      (joinWith ", " (others.map text)).toList ++ [')'] ++ ys) : items = others ∧ xs = ys := by
  rw [List.append_assoc, List.append_assoc] at h
  refine joinWith_append_inj (by decide) (fun x hx more => ?_) (fun a ha b hb xs ys hxs hys => ?_) h
  · exact (hx.elim (hitems x) (hothers x)).head?_ne (by decide) more
  · obtain ⟨word, bracket, inner, hopens⟩ := (hothers b hb).exists_opens
    exact append_inj_of_core (not_call_of_goesOn hxs) (not_call_of_goesOn hys) (hcore a ha hopens)

/-- An integer ends before the bracket behind it. -/
lemma intChars_append_inj {i j : Int} {xs ys : List Char}
    (h : intChars i ++ ']' :: xs = intChars j ++ ']' :: ys) : i = j ∧ xs = ys := by
  have hdigits : ∀ n : Int, ∀ x ∈ intChars n, ¬ x = ']' :=
    fun n x hx heq => absurd (mem_of_mem_intChars (heq ▸ hx)) (by decide)
  obtain ⟨hsame, -, hrest⟩ := append_cons_inj (· = ']') (hdigits i) (hdigits j) rfl rfl h
  exact ⟨intChars_injective hsame, hrest⟩

/-- Without its sounds, a pattern is told apart at the front of any text. -/
lemma core_append_inj {a n : Node} {word : String} {bracket : Char} {inner xs ys : List Char}
    (ha : a.Plain) (hn : n.Opens word bracket inner)
    (h : a.core.text.toList ++ xs = n.text.toList ++ ys) : a.core = n ∧ xs = ys := by
  induction ha generalizing n word bracket inner xs ys with
  | voiced _ _ ih => exact ih hn h
  | bar harray =>
    obtain ⟨hword, hbracket, hinner⟩ := (Opens.bar harray).append_inj hn h
    cases hn with
    | bar =>
      subst hword
      rw [List.append_assoc, List.append_assoc] at hinner
      obtain ⟨rfl, hrest⟩ := intChars_append_inj hinner
      exact ⟨rfl, hrest⟩
    | sectionRef => exact absurd hbracket (by decide)
    | cat => exact absurd hbracket (by decide)
    | stack => exact absurd hbracket (by decide)
  | sectionRef hname =>
    obtain ⟨hword, hbracket, hinner⟩ := (Opens.sectionRef hname).append_inj hn h
    cases hn with
    | bar => exact absurd hbracket (by decide)
    | sectionRef hother =>
      simp only [List.cons_append, List.append_assoc, List.cons.injEq, true_and,
        List.nil_append] at hinner
      obtain ⟨rfl, -, hrest⟩ := hname.append_inj hother (by decide) (by decide) hinner
      exact ⟨rfl, hrest⟩
    | cat hitems =>
      rw [List.append_assoc] at hinner
      exact absurd (congrArg List.head? hinner).symm (head?_items_ne hitems ys)
    | stack => exact absurd hword (by decide)
  | cat hitems ih =>
    obtain ⟨hword, hbracket, hinner⟩ := (Opens.cat hitems).append_inj hn h
    cases hn with
    | bar => exact absurd hbracket (by decide)
    | sectionRef =>
      rw [List.append_assoc] at hinner
      exact absurd (congrArg List.head? hinner) (head?_items_ne hitems xs)
    | cat hothers =>
      obtain ⟨rfl, hrest⟩ := items_append_inj hitems hothers ih hinner
      exact ⟨rfl, hrest⟩
    | stack => exact absurd hword (by decide)
  | stack hitems ih =>
    obtain ⟨hword, hbracket, hinner⟩ := (Opens.stack hitems).append_inj hn h
    cases hn with
    | bar => exact absurd hbracket (by decide)
    | sectionRef => exact absurd hword (by decide)
    | cat => exact absurd hword (by decide)
    | stack hothers =>
      obtain ⟨rfl, hrest⟩ := items_append_inj hitems hothers ih hinner
      exact ⟨rfl, hrest⟩

/-- Patterns are told apart at the front of a text that goes on with no call of a sound. -/
theorem text_append_inj {a b : Node} (ha : a.Plain) (hb : b.Plain) {xs ys : List Char}
    (hxs : ¬ call <+: xs) (hys : ¬ call <+: ys)
    (h : a.text.toList ++ xs = b.text.toList ++ ys) : a = b ∧ xs = ys := by
  obtain ⟨word, bracket, inner, hopens⟩ := hb.exists_opens
  exact append_inj_of_core hxs hys (core_append_inj ha hopens) h

end Node

end PatternScore
