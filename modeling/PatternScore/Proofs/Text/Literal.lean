import Mathlib.Data.List.Basic
import PatternScore.Pattern.Printer

/-!
# Reading string literals

A reader finds the end of a string by one rule: a backslash makes the next character literal, and a
quote that is not made literal ends the string (`readString`). By this rule the literal of a text
ends with its last character and tells the text (`readLiteral_literal`), so no text breaks out of
its literal, whatever quotes and backslashes it holds, and literals at the front of other texts are
told apart (`literal_append_inj`).

What stands between the quotes is also what two replacements over the whole text give, one after the
other (`literalChars_eq_replaceEach`). Their order matters: the backslashes that are put before
quotes must not be doubled.
-/

namespace PatternScore

/-! ## The reader -/

/-- The string behind an opening quote, and the text behind its closing quote; nothing if the string
is not closed. -/
def readString : List Char → Option (List Char × List Char)
  | [] => none
  | c :: cs =>
    if c = '"' then some ([], cs)
    else if c = '\\' then
      match cs with
      | [] => none
      | d :: ds => (readString ds).map fun (s, more) => (d :: s, more)
    else (readString cs).map fun (s, more) => (c :: s, more)

/-- The string of the literal with which a text begins, and the text behind the literal. -/
def readLiteral : List Char → Option (String × List Char)
  | '"' :: cs => (readString cs).map fun (s, more) => (String.ofList s, more)
  | _ => none

/-- A quote ends the string. -/
lemma readString_quote (cs : List Char) : readString ('"' :: cs) = some ([], cs) := by
  rw [readString.eq_def]
  rfl

/-- Behind a backslash any character is one of the string. -/
lemma readString_backslash (c : Char) (cs : List Char) :
    readString ('\\' :: c :: cs) = (readString cs).map fun (s, more) => (c :: s, more) := by
  rw [readString.eq_def]
  rfl

/-- Any other character is one of the string. -/
lemma readString_plain {c : Char} (hquote : c ≠ '"') (hbackslash : c ≠ '\\') (cs : List Char) :
    readString (c :: cs) = (readString cs).map fun (s, more) => (c :: s, more) := by
  rw [readString.eq_def]
  simp only [if_neg hquote, if_neg hbackslash]

/-- Behind a string less is left. -/
lemma length_lt_of_readString {cs s more : List Char} (h : readString cs = some (s, more)) :
    more.length < cs.length := by
  fun_induction readString cs generalizing s with
  | case1 => cases h
  | case2 cs =>
    obtain ⟨-, rfl⟩ := Prod.mk.inj (Option.some.inj h)
    exact Nat.lt_succ_self _
  | case3 => cases h
  | case4 d ds hquote ih =>
    obtain ⟨⟨t, rest⟩, hread, heq⟩ := Option.map_eq_some_iff.mp h
    obtain ⟨-, rfl⟩ := Prod.mk.inj heq
    have := ih hread
    simp only [List.length_cons]
    omega
  | case5 c cs hquote hbackslash ih =>
    obtain ⟨⟨t, rest⟩, hread, heq⟩ := Option.map_eq_some_iff.mp h
    obtain ⟨-, rfl⟩ := Prod.mk.inj heq
    exact Nat.lt_succ_of_lt (ih hread)

/-! ## Literals -/

/-- A literal is the escaped text between quotes. -/
lemma toList_literal (s : String) :
    (literal s).toList = '"' :: (literalChars s.toList ++ ['"']) := by
  simp [literal]

/-- What is written inside a literal is read up to the closing quote. -/
lemma readString_literalChars (cs more : List Char) :
    readString (literalChars cs ++ '"' :: more) = some (cs, more) := by
  induction cs with
  | nil => exact readString_quote more
  | cons c cs ih =>
    rw [literalChars]
    split
    · rw [List.cons_append, List.cons_append, readString_backslash, ih]
      rfl
    · rename_i hplain
      simp only [Bool.or_eq_true, beq_iff_eq, not_or] at hplain
      rw [List.cons_append, readString_plain hplain.1 hplain.2, ih]
      rfl

/-- A literal at the front of a text is read back, and what follows it is left. -/
lemma readLiteral_literal (s : String) (more : List Char) :
    readLiteral ((literal s).toList ++ more) = some (s, more) := by
  rw [toList_literal, List.cons_append, List.append_assoc, readLiteral, List.singleton_append,
    readString_literalChars]
  simp only [Option.map_some, String.ofList_toList]

/-- A literal at the front of a text tells its string and what follows it. -/
lemma literal_append_inj {s t : String} {xs ys : List Char}
    (h : (literal s).toList ++ xs = (literal t).toList ++ ys) : s = t ∧ xs = ys := by
  have hread := congrArg readLiteral h
  rw [readLiteral_literal, readLiteral_literal] at hread
  exact Prod.mk.inj (Option.some.inj hread)

/-- A literal holds no character but those of its string, quotes and backslashes. -/
lemma mem_literal {s : String} {c : Char} (h : c ∈ (literal s).toList) :
    c = '"' ∨ c = '\\' ∨ c ∈ s.toList := by
  have hinner : ∀ {cs : List Char}, c ∈ literalChars cs → c = '\\' ∨ c ∈ cs := by
    intro cs hmem
    induction cs with
    | nil => cases hmem
    | cons d cs ih =>
      rw [literalChars] at hmem
      split at hmem
      · rcases List.mem_cons.mp hmem with rfl | hmem
        · exact .inl rfl
        · rcases List.mem_cons.mp hmem with rfl | hmem
          · exact .inr List.mem_cons_self
          · exact (ih hmem).imp_right (List.mem_cons_of_mem d)
      · rcases List.mem_cons.mp hmem with rfl | hmem
        · exact .inr List.mem_cons_self
        · exact (ih hmem).imp_right (List.mem_cons_of_mem d)
  rw [toList_literal] at h
  rcases List.mem_cons.mp h with rfl | h
  · exact .inl rfl
  · rcases List.mem_append.mp h with h | h
    · exact .inr (hinner h)
    · exact .inl (List.mem_singleton.mp h)

/-! ## Replacing characters -/

/-- A text with other characters in place of each occurrence of one. -/
def replaceEach (c : Char) (new : List Char) (cs : List Char) : List Char :=
  cs.flatMap fun d => if d = c then new else [d]

/-- A text is replaced one character after another. -/
lemma replaceEach_cons (c d : Char) (new cs : List Char) :
    replaceEach c new (d :: cs) = (if d = c then new else [d]) ++ replaceEach c new cs :=
  rfl

/-- Characters are replaced one part of a text after another. -/
lemma replaceEach_append (c : Char) (new cs ds : List Char) :
    replaceEach c new (cs ++ ds) = replaceEach c new cs ++ replaceEach c new ds :=
  List.flatMap_append

/-- Inside a literal each backslash is doubled, and then each quote gets a backslash. -/
lemma literalChars_eq_replaceEach (cs : List Char) :
    literalChars cs = replaceEach '"' ['\\', '"'] (replaceEach '\\' ['\\', '\\'] cs) := by
  induction cs with
  | nil => rfl
  | cons c cs ih =>
    rw [replaceEach_cons, replaceEach_append, ← ih, literalChars]
    by_cases hbackslash : c = '\\'
    · simp [hbackslash, replaceEach]
    · by_cases hquote : c = '"'
      · simp [hquote, replaceEach]
      · simp [hbackslash, hquote, replaceEach]

/-- In the other order the text of one quote is closed too early. -/
example : readString (replaceEach '\\' ['\\', '\\'] (replaceEach '"' ['\\', '"'] ['"']) ++ ['"']) =
    some (['\\'], ['"']) := by
  decide

end PatternScore
