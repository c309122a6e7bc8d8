import PatternScore.Proofs.Pattern.Unambiguous

/-!
# The strings of a program

A program's text names its scale and its sounds by string literals. To go through the text and take
the literals as they come (`stringsIn`) gives exactly these strings, in the order in which they
stand: those of a pattern (`Node.strings`), the scale, and the sound if one is named
(`Program.hasStrings`). All that is asked for is that no name of an array holds a quote. What stands
behind a pattern is read back whatever the names in the pattern are.
-/

namespace PatternScore

open Text

/-! ## The strings of a text -/

/-- The strings of the literals in a text, from left to right; nothing if one is not closed. -/
def stringsIn : List Char → Option (List String)
  | [] => some []
  | c :: cs =>
    if c = '"' then
      match _hread : readString cs with
      | none => none
      | some (s, more) => (stringsIn more).map (String.ofList s :: ·)
    else stringsIn cs
termination_by cs => cs.length
decreasing_by
  · exact Nat.lt_succ_of_lt (length_lt_of_readString ‹_›)
  · exact Nat.lt_succ_self _

/-- A string that is closed comes before the strings behind it. -/
lemma stringsIn_quote {cs s more : List Char} (h : readString cs = some (s, more)) :
    stringsIn ('"' :: cs) = (stringsIn more).map (String.ofList s :: ·) := by
  rw [stringsIn, if_pos rfl]
  split
  · rename_i hread
    rw [h] at hread
    cases hread
  · rename_i t rest hread
    rw [h] at hread
    cases hread
    rfl

/-- Whatever follows a text, the strings in the text are read before those that follow. -/
def HasStrings (cs : List Char) (strings : List String) : Prop :=
  ∀ more, stringsIn (cs ++ more) = (stringsIn more).map (strings ++ ·)

namespace HasStrings

variable {cs ds : List Char} {strings others : List String}

/-- The text on its own has its strings. -/
lemma stringsIn_eq (h : HasStrings cs strings) : stringsIn cs = some strings := by
  have hempty := h []
  rw [List.append_nil, stringsIn, Option.map_some, List.append_nil] at hempty
  exact hempty

/-- A text behind another one adds its strings. -/
protected lemma append (hcs : HasStrings cs strings) (hds : HasStrings ds others) :
    HasStrings (cs ++ ds) (strings ++ others) := by
  intro more
  rw [List.append_assoc, hcs, hds, Option.map_map]
  simp only [Function.comp_def, List.append_assoc]

/-- A text without quotes has no strings. -/
lemma of_notMem (h : '"' ∉ cs) : HasStrings cs [] := by
  intro more
  induction cs with
  | nil => simp
  | cons c cs ih =>
    obtain ⟨hc, hcs⟩ := not_or.mp (List.mem_cons.not.mp h)
    rw [List.cons_append, stringsIn, if_neg (Ne.symm hc), ih hcs]

/-- Texts without quotes before and behind a text add no strings to it. -/
lemma between {before behind : List Char} (h : HasStrings cs strings) (hbefore : '"' ∉ before)
    (hbehind : '"' ∉ behind) : HasStrings (before ++ cs ++ behind) strings := by
  have hall := ((of_notMem hbefore).append h).append (of_notMem hbehind)
  rwa [List.nil_append, List.append_nil] at hall

/-- A literal has its string. -/
protected lemma literal (s : String) : HasStrings (literal s).toList [s] := by
  intro more
  have hread := readString_literalChars s.toList more
  rw [toList_literal, List.cons_append, List.append_assoc, List.singleton_append,
    stringsIn_quote hread, String.ofList_toList]
  rfl

/-- Joined texts have the strings of each, one after another. -/
protected lemma joinWith {α : Type} {sep : String} (hsep : '"' ∉ sep.toList) {items : List α}
    {text : α → String} {held : α → List String}
    (h : ∀ item ∈ items, HasStrings (text item).toList (held item)) :
    HasStrings (joinWith sep (items.map text)).toList (items.flatMap held) := by
  induction items with
  | nil => exact of_notMem (by simp [Text.joinWith])
  | cons item rest ih =>
    obtain ⟨hitem, hrest⟩ := List.forall_mem_cons.mp h
    cases rest with
    | nil => simpa [Text.joinWith] using hitem
    | cons next rest =>
      have hjoined := (hitem.append (of_notMem hsep)).append (ih hrest)
      simpa [Text.joinWith] using hjoined

end HasStrings

/-- Behind the first of two texts stands the second. -/
lemma drop_toList_append (s t : String) : (s ++ t).toList.drop s.length = t.toList := by
  rw [String.toList_append, ← String.length_toList, List.drop_left]

/-! ## Patterns -/

namespace Node

mutual

/-- The sounds in a pattern, in the order in which they are written. -/
def strings : Node → List String
  | bar _ _ => []
  | sectionRef _ => []
  | cat items => stringsOf items
  | stack items => stringsOf items
  | voiced pattern sound => strings pattern ++ [sound]

/-- The sounds in some patterns. -/
def stringsOf : List Node → List String
  | [] => []
  | item :: rest => strings item ++ stringsOf rest

end

/-- No name in a pattern holds a quote. -/
inductive Unquoted : Node → Prop where
  /-- A bar of an array. -/
  | bar {array : String} {index : Int} : '"' ∉ array.toList → Unquoted (.bar array index)
  /-- A section. -/
  | sectionRef {name : String} : '"' ∉ name.toList → Unquoted (.sectionRef name)
  /-- Patterns one after another. -/
  | cat {items : List Node} : (∀ item ∈ items, Unquoted item) → Unquoted (.cat items)
  /-- Patterns together. -/
  | stack {items : List Node} : (∀ item ∈ items, Unquoted item) → Unquoted (.stack items)
  /-- A pattern with a sound, which may hold quotes. -/
  | voiced {pattern : Node} {sound : String} : Unquoted pattern → Unquoted (.voiced pattern sound)

/-- The sounds in some patterns are those in each of them, one after another. -/
lemma stringsOf_eq_flatMap (items : List Node) : stringsOf items = items.flatMap strings := by
  induction items with
  | nil => rfl
  | cons item rest ih => rw [stringsOf, ih, List.flatMap_cons]

/-- A pattern with a sound is written as the pattern and the call of the sound. -/
lemma text_voiced (pattern : Node) (sound : String) :
    (voiced pattern sound).text = pattern.text ++ (".s(" ++ literal sound ++ ")") := by
  rw [text, String.append_assoc, String.append_assoc, String.append_assoc]

/-- The call of a sound names the sound. -/
lemma hasStrings_call (sound : String) :
    HasStrings (".s(" ++ literal sound ++ ")").toList [sound] := by
  rw [String.toList_append, String.toList_append]
  exact (HasStrings.literal sound).between (by decide) (by decide)

/-- The text of a pattern has the sounds of the pattern. -/
lemma Unquoted.hasStrings {n : Node} (h : n.Unquoted) : HasStrings n.text.toList n.strings := by
  have hitems : ∀ {items : List Node},
      (∀ item ∈ items, HasStrings item.text.toList item.strings) →
        HasStrings (Text.joinWith ", " (texts items)).toList (stringsOf items) := by
    intro items hall
    rw [texts_eq_map, stringsOf_eq_flatMap]
    exact .joinWith (by decide) hall
  induction h with
  | bar harray =>
    rw [text, strings]
    refine .of_notMem fun hquote => ?_
    simp only [String.toList_append, List.mem_append] at hquote
    obtain ((hquote | hquote) | hquote) | hquote := hquote
    · exact harray hquote
    · exact absurd hquote (by decide)
    · rw [toList_int] at hquote
      exact absurd (mem_of_mem_intChars hquote) (by decide)
    · exact absurd hquote (by decide)
  | sectionRef hname =>
    rw [text, strings, String.toList_append, String.toList_append]
    exact (HasStrings.of_notMem hname).between (by decide) (by decide)
  | cat _ ih =>
    rw [text, strings, String.toList_append, String.toList_append]
    exact (hitems ih).between (by decide) (by decide)
  | stack _ ih =>
    rw [text, strings, String.toList_append, String.toList_append]
    exact (hitems ih).between (by decide) (by decide)
  | @voiced pattern sound _ ih =>
    rw [text_voiced, String.toList_append, strings]
    exact ih.append (hasStrings_call sound)

/-- Behind a pattern the sound it is played with is read back. -/
lemma stringsIn_behind (pattern : Node) (sound : String) :
    stringsIn ((voiced pattern sound).text.toList.drop pattern.text.length) = some [sound] := by
  rw [text_voiced, drop_toList_append]
  exact (hasStrings_call sound).stringsIn_eq

end Node

/-! ## Programs -/

namespace Program

/-- What follows the pattern in the text of a program. -/
def calls (p : Program) : String :=
  let sound :=
    match p.sound with
    | some sound => if sound.isEmpty then "" else ".s(" ++ literal sound ++ ")"
    | none => ""
  ".scale(" ++ literal p.scale ++ ")" ++ sound ++ ";"

/-- The strings that follow the pattern: the scale, and the sound unless it is empty. -/
def strings (p : Program) : List String :=
  p.scale :: (p.sound.filter (!·.isEmpty)).toList

/-- A program is written as its pattern and what follows it. -/
lemma text_eq_append (p : Program) : p.text = p.body.text ++ p.calls := by
  unfold text calls
  cases p.sound with
  | none => simp only [String.append_assoc]
  | some sound => simp only [String.append_assoc]

/-- What follows the pattern names the scale and the sound. -/
lemma hasStrings_calls (p : Program) : HasStrings p.calls.toList p.strings := by
  have hscale : HasStrings (".scale(".toList ++ (literal p.scale).toList ++ ")".toList) [p.scale] :=
    (HasStrings.literal p.scale).between (by decide) (by decide)
  have hend : HasStrings ";".toList [] := .of_notMem (by decide)
  unfold calls strings
  cases hsound : p.sound with
  | none => simpa using hscale.append hend
  | some sound =>
    by_cases hempty : sound.isEmpty
    · simpa [hempty, Option.filter] using hscale.append hend
    · simpa [hempty, Option.filter] using (hscale.append (Node.hasStrings_call sound)).append hend

/-- Behind the pattern the scale and the sound are read back. -/
lemma stringsIn_behind_body (p : Program) :
    stringsIn (p.text.toList.drop p.body.text.length) = some p.strings := by
  rw [p.text_eq_append, drop_toList_append]
  exact p.hasStrings_calls.stringsIn_eq

/-- The text of a program has the strings of its pattern, and then the scale and the sound. -/
lemma hasStrings {p : Program} (h : p.body.Unquoted) :
    HasStrings p.text.toList (p.body.strings ++ p.strings) := by
  rw [p.text_eq_append, String.toList_append]
  exact h.hasStrings.append p.hasStrings_calls

end Program

/-! ## What is read back -/

/-- No string breaks out of its literal. A literal is its string between quotes, with each backslash
doubled and then a backslash before each quote; whatever follows it, a reader finds its end with its
last character and gets the string back. So the sound of a voice, and the scale and the sound of a
program, are read back from what stands behind the pattern, whatever they hold and whatever the
names in the pattern are. If no name holds a quote, the whole text has these strings and no
others. -/
theorem strings_read_back :
    (∀ s : String, (literal s).toList =
      '"' :: (replaceEach '"' ['\\', '"'] (replaceEach '\\' ['\\', '\\'] s.toList) ++ ['"'])) ∧
    (∀ (s : String) (more : List Char),
      readLiteral ((literal s).toList ++ more) = some (s, more)) ∧
    (∀ (n : Node) (sound : String),
      stringsIn ((Node.voiced n sound).text.toList.drop n.text.length) = some [sound]) ∧
    (∀ p : Program, stringsIn (p.text.toList.drop p.body.text.length) = some p.strings) ∧
    (∀ n : Node, n.Unquoted → stringsIn n.text.toList = some n.strings) ∧
    (∀ p : Program, p.body.Unquoted →
      stringsIn p.text.toList = some (p.body.strings ++ p.strings)) := by
  refine ⟨fun s => ?_, readLiteral_literal, Node.stringsIn_behind, Program.stringsIn_behind_body,
    fun n hn => hn.hasStrings.stringsIn_eq, fun _ hbody => (Program.hasStrings hbody).stringsIn_eq⟩
  rw [toList_literal, literalChars_eq_replaceEach]

/-- A program in which the scale and the sounds end with a backslash or look like the end of their
literals. -/
def Program.escaping : Program where
  body := .stack
    [.voiced (.cat [.sectionRef "v0_main"]) "a\"b\\", .voiced (.bar "v1" 0) "\\\"), x(\""]
  scale := "C:\"major\\"
  sound := some "\\\""

/-- They are all read back. -/
theorem strings_read_back_escaping :
    Program.escaping.body.Unquoted ∧
      stringsIn Program.escaping.body.text.toList = some ["a\"b\\", "\\\"), x(\""] ∧
      stringsIn Program.escaping.text.toList =
        some ["a\"b\\", "\\\"), x(\"", "C:\"major\\", "\\\""] := by
  have hunquoted : Program.escaping.body.Unquoted := by
    refine .stack (List.forall_mem_cons.mpr ⟨?_, List.forall_mem_cons.mpr ⟨?_, by simp⟩⟩)
    · exact .voiced (.cat (List.forall_mem_cons.mpr ⟨.sectionRef (by decide), by simp⟩))
    · exact .voiced (.bar (by decide))
  obtain ⟨-, -, -, -, hpattern, hprogram⟩ := strings_read_back
  exact ⟨hunquoted, hpattern Program.escaping.body hunquoted, hprogram Program.escaping hunquoted⟩

end PatternScore
