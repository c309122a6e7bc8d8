import Mathlib
import PatternScore.Abc.Header
import PatternScore.Proofs.Text.Joining

/-!
# Header fields line by line

A line that begins with a letter and a colon is a field, and what stands behind the colon is its
value (`lineFields`). The header reader does not go line by line: it skips the blanks before a value
over line ends too. This shows exactly where an empty field stands before a line that is not blank
(`fieldsFrom_eq_lineFields_iff`); such a field takes that line for its value. In any other text the
header has for each letter what the first line with it says.
-/

namespace PatternScore.Abc

open Text

/-! ## Lines and their fields -/

/-- The lines of a text, each of which ends at a line feed. -/
def textLines (cs : List Char) : List (List Char) :=
  splitChars (· == '\n') cs

/-- The field that a text begins with: its letter as a capital, and what stands behind the colon. -/
def lineField? : List Char → Option (Char × List Char)
  | c :: ':' :: cs => if isLetter c then some (c.toUpper, cs) else none
  | _ => none

/-- The fields that some lines are, in order, with the blanks around their values left out. -/
def lineFields (lines : List (List Char)) : List (Char × String) :=
  lines.filterMap fun line =>
    (lineField? line).map fun (letter, value) => (letter, String.ofList (trimChars value))

/-- Nothing but blanks stands in the text. -/
def isBlankText (cs : List Char) : Bool :=
  cs.all isBlank

/-- The line is a field without a value. -/
def isEmptyField (line : List Char) : Bool :=
  (lineField? line).any fun field => isBlankText field.2

/-- Behind an empty field only blank lines follow. -/
def FieldsFilled (lines : List (List Char)) : Prop :=
  lines.Pairwise fun line later => isEmptyField line = true → isBlankText later = true

/-- Whether all fields are filled can be computed, so the rule can be tried on a given header. -/
instance (lines : List (List Char)) : Decidable (FieldsFilled lines) :=
  inferInstanceAs (Decidable (List.Pairwise _ _))

variable {cs line value more : List Char} {letter : Char}

/-- No character of a line without line feeds is one. -/
lemma beq_feed_of_notMem (h : '\n' ∉ line) : ∀ c ∈ line, (c == '\n') = false := by
  intro c hc
  exact beq_false_of_ne fun heq => h (heq ▸ hc)

/-- A text without line feeds is a single line. -/
lemma textLines_of_notMem (h : '\n' ∉ line) : textLines line = [line] :=
  splitChars_eq_singleton (beq_feed_of_notMem h)

/-- The first line of a text is what stands before its first line feed. -/
lemma textLines_append (h : '\n' ∉ line) :
    textLines (line ++ '\n' :: more) = line :: textLines more :=
  splitChars_append_cons (beq_feed_of_notMem h) (beq_self_eq_true _) more

/-- What holds of a line, and of a line before a text of which it holds, holds of all texts. -/
theorem lines_induction {motive : List Char → Prop} (last : ∀ line, '\n' ∉ line → motive line)
    (first : ∀ line more, '\n' ∉ line → motive more → motive (line ++ '\n' :: more))
    (cs : List Char) : motive cs := by
  induction hlength : cs.length using Nat.strong_induction_on generalizing cs with
  | _ n ih =>
    by_cases hmem : '\n' ∈ cs
    · obtain ⟨line, more, rfl, hline⟩ := List.eq_append_cons_of_mem hmem
      exact first line more hline (ih more.length (by simp [← hlength]; omega) more rfl)
    · exact last cs hmem

/-- A text is blank exactly if its lines are. -/
lemma forall_isBlankText_iff :
    (∀ line ∈ textLines cs, isBlankText line = true) ↔ isBlankText cs = true := by
  induction cs using lines_induction with
  | last line hline => rw [textLines_of_notMem hline, List.forall_mem_singleton]
  | first line more hline ih =>
    have hfeed : isBlank '\n' = true := by decide
    rw [textLines_append hline, List.forall_mem_cons, ih]
    simp [isBlankText, hfeed]

/-- A letter is no blank. -/
lemma isBlank_of_isLetter {c : Char} (h : isLetter c = true) : isBlank c = false := by
  simp only [isLetter, Bool.or_eq_true, Bool.and_eq_true, decide_eq_true_eq, Char.le_def,
    UInt32.le_iff_toNat_le] at h
  simp only [isBlank, Bool.or_eq_false_iff, Bool.and_eq_false_iff, decide_eq_false_iff_not,
    beq_eq_false_iff_ne, Char.toNat]
  have hA : 'A'.val.toNat = 65 := rfl
  have hZ : 'Z'.val.toNat = 90 := rfl
  have ha : 'a'.val.toNat = 97 := rfl
  have hz : 'z'.val.toNat = 122 := rfl
  omega

/-- A text begins with a field if and only if it begins with a letter and a colon. -/
lemma lineField?_eq_some_iff : lineField? cs = some (letter, value) ↔
    ∃ c, isLetter c = true ∧ c.toUpper = letter ∧ cs = c :: ':' :: value := by
  unfold lineField?
  split
  · rename_i c rest
    by_cases hc : isLetter c
    · simp only [hc, if_true, Option.some.injEq, Prod.mk.injEq, List.cons.injEq]
      constructor
      · rintro ⟨rfl, rfl⟩
        exact ⟨c, hc, rfl, rfl, trivial, rfl⟩
      · rintro ⟨c', -, rfl, rfl, -, rfl⟩
        exact ⟨rfl, rfl⟩
    · simp only [hc, Bool.false_eq_true, if_false, reduceCtorEq, false_iff]
      rintro ⟨c', hc', -, heq⟩
      exact hc ((List.cons.inj heq).1 ▸ hc')
  · rename_i hshape
    simp only [reduceCtorEq, false_iff]
    rintro ⟨c, -, -, heq⟩
    exact hshape c value heq

/-- A field goes on with what is behind it. -/
lemma lineField?_append_of_some (h : lineField? line = some (letter, value)) (more : List Char) :
    lineField? (line ++ more) = some (letter, value ++ more) := by
  obtain ⟨c, hc, hletter, rfl⟩ := lineField?_eq_some_iff.mp h
  exact lineField?_eq_some_iff.mpr ⟨c, hc, hletter, rfl⟩

/-- A line that is no field does not become one by what is behind it. -/
lemma lineField?_append_of_none (h : lineField? line = none) :
    lineField? (line ++ '\n' :: more) = none := by
  rw [Option.eq_none_iff_forall_ne_some]
  rintro ⟨letter, value⟩ hsome
  obtain ⟨c, hc, hletter, heq⟩ := lineField?_eq_some_iff.mp hsome
  match line with
  | [] =>
    obtain ⟨rfl, -⟩ := List.cons.inj heq
    exact absurd hc (by decide)
  | [_] =>
    have hcolon := (List.cons.inj (List.cons.inj heq).2).1
    exact absurd hcolon (by decide)
  | d :: e :: rest =>
    obtain ⟨rfl, htail⟩ := List.cons.inj heq
    obtain ⟨rfl, -⟩ := List.cons.inj htail
    rw [lineField?_eq_some_iff.mpr ⟨d, hc, rfl, rfl⟩] at h
    cases h

/-- A blank line is no field. -/
lemma lineField?_of_isBlankText (h : isBlankText line = true) : lineField? line = none := by
  rw [Option.eq_none_iff_forall_ne_some]
  rintro ⟨letter, value⟩ hsome
  obtain ⟨c, hc, -, rfl⟩ := lineField?_eq_some_iff.mp hsome
  have hblank : isBlank c = true := List.all_eq_true.mp h c List.mem_cons_self
  rw [isBlank_of_isLetter hc] at hblank
  cases hblank

/-! ## What the reader does at a field -/

/-- A line reaches up to its end. -/
lemma takeWhile_of_notMem (h : '\n' ∉ line) : line.takeWhile (· != '\n') = line :=
  List.takeWhile_eq_self_iff.mpr fun c hc => by rw [bne, beq_feed_of_notMem h c hc]; rfl

/-- What is not of the first line begins with the line feed behind it. -/
lemma dropWhile_append_feed (h : '\n' ∉ line) (more : List Char) :
    (line ++ '\n' :: more).dropWhile (· != '\n') = '\n' :: more := by
  rw [List.dropWhile_append_of_pos fun c hc => by rw [bne, beq_feed_of_notMem h c hc]; rfl]
  rfl

/-- The next line begins behind the line feed. -/
lemma nextLine_append (h : '\n' ∉ line) : nextLine (line ++ '\n' :: more) = more := by
  rw [nextLine, dropWhile_append_feed h]
  rfl

/-- There is nothing behind the last line. -/
lemma nextLine_of_notMem (h : '\n' ∉ line) : nextLine line = [] := by
  have hall : line.dropWhile (· != '\n') = [] :=
    List.dropWhile_eq_nil_iff.mpr fun c hc => by rw [bne, beq_feed_of_notMem h c hc]; rfl
  rw [nextLine, hall]
  rfl

/-- A line that begins with no field is passed over. -/
lemma fieldsFrom_of_none (h : lineField? cs = none) : fieldsFrom cs = fieldsFrom (nextLine cs) := by
  conv_lhs => rw [fieldsFrom.eq_def]
  split
  · rw [nextLine_of_notMem List.not_mem_nil, fieldsFrom]
  · rename_i c rest
    split
    · rename_i hc
      rw [lineField?_eq_some_iff.mpr ⟨c, hc, rfl, rfl⟩] at h
      cases h
    · rfl
  · rfl

/-- A field is read, and reading goes on in the line behind the one in which its value begins, which
need not be the next one. -/
lemma fieldsFrom_of_some (h : lineField? cs = some (letter, value)) :
    fieldsFrom cs =
      (letter, fieldValue value) :: fieldsFrom (nextLine (value.dropWhile isBlank)) := by
  obtain ⟨c, hc, rfl, rfl⟩ := lineField?_eq_some_iff.mp h
  rw [fieldsFrom, if_pos hc]

/-- The blanks before a value end in its line, if there is one. -/
lemma dropWhile_append_of_filled (h : isBlankText value = false) (more : List Char) :
    (value ++ more).dropWhile isBlank = value.dropWhile isBlank ++ more := by
  have hne : value.dropWhile isBlank ≠ [] := by
    intro hnil
    rw [isBlankText, List.all_eq_true.mpr (List.dropWhile_eq_nil_iff.mp hnil)] at h
    cases h
  rw [List.dropWhile_append, if_neg (by simpa using hne)]

/-- The blanks behind an empty field go on over the end of its line. -/
lemma dropWhile_append_of_blank (h : isBlankText value = true) (more : List Char) :
    (value ++ '\n' :: more).dropWhile isBlank = more.dropWhile isBlank := by
  rw [List.dropWhile_append_of_pos (List.all_eq_true.mp h)]
  rfl

/-- In the last line, the value is what is left of it without the blanks around. -/
lemma fieldValue_of_notMem (h : '\n' ∉ value) :
    fieldValue value = String.ofList (trimChars value) := by
  have hrest : '\n' ∉ value.dropWhile isBlank := fun hmem =>
    h ((List.dropWhile_suffix _).subset hmem)
  rw [fieldValue, takeWhile_of_notMem hrest, trimChars]

/-- A value that is not blank ends with its line. -/
lemma fieldValue_append_of_filled (h : '\n' ∉ value) (hfilled : isBlankText value = false) :
    fieldValue (value ++ '\n' :: more) = String.ofList (trimChars value) := by
  have hrest : ∀ c ∈ value.dropWhile isBlank, (c != '\n') = true := fun c hc => by
    rw [bne, beq_feed_of_notMem h c ((List.dropWhile_suffix _).subset hc)]
    rfl
  rw [fieldValue, dropWhile_append_of_filled hfilled, List.takeWhile_append_of_pos hrest, trimChars]
  simp

/-- A blank value is looked for in the next line. -/
lemma fieldValue_append_of_blank (h : isBlankText value = true) :
    fieldValue (value ++ '\n' :: more) = fieldValue more := by
  rw [fieldValue, fieldValue, dropWhile_append_of_blank h]

/-- The value is empty exactly if nothing but blanks follows. -/
lemma fieldValue_eq_empty_iff : fieldValue cs = "" ↔ isBlankText cs = true := by
  have htrim : ∀ ds : List Char, trimRight ds = [] ↔ isBlankText ds = true := by
    intro ds
    rw [trimRight, List.reverse_eq_nil_iff, List.dropWhile_eq_nil_iff, isBlankText]
    simp
  have hempty : fieldValue cs = "" ↔
      trimRight ((cs.dropWhile isBlank).takeWhile (· != '\n')) = [] := by
    rw [fieldValue]
    exact ⟨fun heq => by simpa using congrArg String.toList heq, fun hnil => by rw [hnil]⟩
  rw [hempty, htrim]
  constructor
  · intro hvalue
    cases hrest : cs.dropWhile isBlank with
    | nil => exact List.all_eq_true.mpr (List.dropWhile_eq_nil_iff.mp hrest)
    | cons c rest =>
      have hfull : isBlank c = false := by
        simpa [hrest] using List.head_dropWhile_not isBlank (l := cs) (by simp [hrest])
      have hfeed : (c != '\n') = true := by
        rw [bne_iff_ne]
        rintro rfl
        cases hfull
      rw [hrest, List.takeWhile_cons, if_pos hfeed] at hvalue
      simp [isBlankText, hfull] at hvalue
  · intro hblank
    rw [List.dropWhile_eq_nil_iff.mpr (List.all_eq_true.mp hblank)]
    rfl

/-! ## Line by line -/

/-- A line that is no field adds none. -/
lemma lineFields_cons_of_none (h : lineField? line = none) (rest : List (List Char)) :
    lineFields (line :: rest) = lineFields rest := by
  simp [lineFields, h]

/-- A line that is a field puts it before those of the other lines. -/
lemma lineFields_cons_of_some (h : lineField? line = some (letter, value))
    (rest : List (List Char)) :
    lineFields (line :: rest) = (letter, String.ofList (trimChars value)) :: lineFields rest := by
  simp [lineFields, h]

/-- Blank lines hold no fields. -/
lemma lineFields_eq_nil {lines : List (List Char)}
    (h : ∀ line ∈ lines, isBlankText line = true) : lineFields lines = [] := by
  refine List.filterMap_eq_nil_iff.mpr fun line hline => ?_
  rw [lineField?_of_isBlankText (h line hline)]
  rfl

/-- The rule for a first line and the others: behind it, if it is an empty field, nothing but
blanks; and the rule for the others. -/
lemma filledFields_cons {rest : List (List Char)} : FieldsFilled (line :: rest) ↔
    (isEmptyField line = true → ∀ later ∈ rest, isBlankText later = true) ∧
      FieldsFilled rest := by
  rw [FieldsFilled, List.pairwise_cons]
  exact and_congr_left fun _ =>
    ⟨fun h hempty later hlater => h later hlater hempty,
      fun h later hlater hempty => h hempty later hlater⟩

/-- Blank lines hold no empty fields. -/
lemma fieldsFilled_of_blank {lines : List (List Char)}
    (h : ∀ line ∈ lines, isBlankText line = true) : FieldsFilled lines :=
  List.pairwise_of_forall_mem_list fun _ _ later hlater _ => h later hlater

/-- A text of one line is read as this line. -/
lemma fieldsFrom_of_notMem (hline : '\n' ∉ line) : fieldsFrom line = lineFields [line] := by
  cases hfield : lineField? line with
  | none =>
    rw [fieldsFrom_of_none hfield, nextLine_of_notMem hline, lineFields_cons_of_none hfield,
      fieldsFrom]
    rfl
  | some field =>
    obtain ⟨letter, value⟩ := field
    obtain ⟨c, -, -, rfl⟩ := lineField?_eq_some_iff.mp hfield
    have hvalue : '\n' ∉ value := fun h => hline (by simp [h])
    have hrest : '\n' ∉ value.dropWhile isBlank := fun h =>
      hvalue ((List.dropWhile_suffix _).subset h)
    rw [fieldsFrom_of_some hfield, lineFields_cons_of_some hfield, fieldValue_of_notMem hvalue,
      nextLine_of_notMem hrest, fieldsFrom]
    rfl

/-- The reader goes line by line exactly if no empty field stands before a line that is not
blank. -/
lemma fieldsFrom_eq_lineFields_iff (cs : List Char) :
    fieldsFrom cs = lineFields (textLines cs) ↔ FieldsFilled (textLines cs) := by
  induction cs using lines_induction with
  | last line hline =>
    rw [textLines_of_notMem hline]
    exact iff_of_true (fieldsFrom_of_notMem hline) (List.pairwise_singleton _ _)
  | first line more hline ih =>
    rw [textLines_append hline, filledFields_cons]
    cases hfield : lineField? line with
    | none =>
      have hempty : isEmptyField line = false := by simp [isEmptyField, hfield]
      rw [fieldsFrom_of_none (lineField?_append_of_none hfield), nextLine_append hline,
        lineFields_cons_of_none hfield, ih, hempty]
      simp
    | some field =>
      obtain ⟨letter, value⟩ := field
      obtain ⟨c, -, -, rfl⟩ := lineField?_eq_some_iff.mp hfield
      have hvalue : '\n' ∉ value := fun h => hline (by simp [h])
      rw [fieldsFrom_of_some (lineField?_append_of_some hfield _), lineFields_cons_of_some hfield]
      have hempty : isEmptyField (c :: ':' :: value) = isBlankText value := by
        simp [isEmptyField, hfield]
      rw [hempty, forall_isBlankText_iff]
      cases hfilled : isBlankText value with
      | false =>
        have hrest : '\n' ∉ value.dropWhile isBlank := fun h =>
          hvalue ((List.dropWhile_suffix _).subset h)
        rw [fieldValue_append_of_filled hvalue hfilled, dropWhile_append_of_filled hfilled,
          nextLine_append hrest, List.cons_inj_right, ih]
        simp
      | true =>
        have htrim : String.ofList (trimChars value) = "" := by
          rw [← fieldValue_of_notMem hvalue, fieldValue_eq_empty_iff, hfilled]
        rw [fieldValue_append_of_blank hfilled, dropWhile_append_of_blank hfilled, htrim]
        by_cases hblank : isBlankText more = true
        · have hlines := forall_isBlankText_iff.mpr hblank
          have hnothing : more.dropWhile isBlank = [] :=
            List.dropWhile_eq_nil_iff.mpr (List.all_eq_true.mp hblank)
          rw [fieldValue_eq_empty_iff.mpr hblank, hnothing, lineFields_eq_nil hlines]
          refine iff_of_true ?_ ⟨fun _ => hblank, fieldsFilled_of_blank hlines⟩
          rw [nextLine_of_notMem List.not_mem_nil, fieldsFrom]
        · refine iff_of_false (fun heq => ?_) fun h => hblank (h.1 rfl)
          have hvalues := congrArg Prod.snd (List.cons.inj heq).1
          exact hblank (fieldValue_eq_empty_iff.mp hvalues)

/-- The header has for each letter its first field. -/
lemma lookup_firstFields (fields : List (Char × String)) (header : Header) (letter : Char) :
    (firstFields fields header).lookup letter =
      (header.lookup letter).or (fields.lookup letter) := by
  induction fields generalizing header with
  | nil => simp [firstFields]
  | cons field rest ih =>
    obtain ⟨l, value⟩ := field
    rw [firstFields]
    by_cases hl : letter = l
    · subst hl
      cases hseen : header.lookup letter with
      | some found => simp [ih, hseen]
      | none => simp [ih, hseen, List.lookup_append]
    · have hne : (letter == l) = false := beq_false_of_ne hl
      rw [List.lookup_cons, hne]
      split
      · exact ih header
      · rw [ih, List.lookup_append, List.lookup_cons, hne]
        simp

/-- The fields that are read are those of the lines exactly if no empty field stands before a line
that is not blank. Then the header has for each letter what the first line says that begins with it
and a colon, without the blanks around it, and nothing for a letter without such a line. -/
theorem readHeader_by_line (s : String) :
    (fieldsFrom s.toList = lineFields (textLines s.toList) ↔ FieldsFilled (textLines s.toList)) ∧
      (FieldsFilled (textLines s.toList) → ∀ letter,
        (readHeader s).lookup letter = (lineFields (textLines s.toList)).lookup letter) := by
  have hiff := fieldsFrom_eq_lineFields_iff s.toList
  refine ⟨hiff, fun hfilled letter => ?_⟩
  rw [readHeader, lookup_firstFields, hiff.mpr hfilled]
  rfl

/-- A small letter, a blank line, a second title and an empty field at the end. -/
theorem readHeader_by_line_titled :
    let s := "X: 7 \r\n\nt:Jig\nT:Reel\nK:\n \n"
    FieldsFilled (textLines s.toList) ∧ (readHeader s).lookup 'X' = some "7" ∧
      (readHeader s).lookup 'T' = some "Jig" ∧ (readHeader s).lookup 'K' = some "" ∧
      (readHeader s).lookup 'M' = none := by
  intro s
  have hfilled : FieldsFilled (textLines s.toList) := by decide +kernel
  have hlookup := (readHeader_by_line s).2 hfilled
  have hfields : lineFields (textLines s.toList) =
      [('X', "7"), ('T', "Jig"), ('T', "Reel"), ('K', "")] := by decide +kernel
  rw [hlookup, hlookup, hlookup, hlookup, hfields]
  exact ⟨hfilled, rfl, rfl, rfl, rfl⟩

/-- An empty field takes the next line for its value and hides the field that stands there. -/
theorem not_forall_lookup_lineFields :
    ¬ ∀ (s : String) (letter : Char),
      (readHeader s).lookup letter = (lineFields (textLines s.toList)).lookup letter := by
  intro hall
  have hread : readHeader "K:\nX:5" = [('K', "X:5")] := by cbv
  have hlines : lineFields (textLines "K:\nX:5".toList) = [('K', ""), ('X', "5")] := by
    decide +kernel
  have hhidden := hall "K:\nX:5" 'X'
  rw [hread, hlines] at hhidden
  exact absurd hhidden (by decide)

end PatternScore.Abc
