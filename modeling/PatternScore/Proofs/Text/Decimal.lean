import Mathlib.Tactic
import PatternScore.Notation.Reader

/-!
# Decimal texts

The decimal text of an integer reads back as the integer, so it tells integers apart. Its characters
are ASCII digits and the minus sign; none of them separates anything in a key or in a bar.
-/

namespace PatternScore.Text

/-! ## Digits -/

/-- A digit stands for its number. -/
lemma digitValue?_asciiDigit (n : Nat) : digitValue? (asciiDigit n) = some (n % 10) := by
  have h : ∀ d < 10, digitValue? (Char.ofNat (48 + d)) = some d := by decide
  exact h (n % 10) (Nat.mod_lt n (by norm_num))

/-- A digit is one of ten characters. -/
lemma asciiDigit_mem (n : Nat) :
    asciiDigit n ∈ ['0', '1', '2', '3', '4', '5', '6', '7', '8', '9'] := by
  have h : ∀ d < 10,
      Char.ofNat (48 + d) ∈ ['0', '1', '2', '3', '4', '5', '6', '7', '8', '9'] := by decide
  exact h (n % 10) (Nat.mod_lt n (by norm_num))

/-- The characters of a natural number are digits. -/
lemma exists_of_mem_natChars {n : Nat} {c : Char} (h : c ∈ natChars n) :
    ∃ d, c = asciiDigit d := by
  induction n using Nat.strong_induction_on with
  | _ n ih =>
    unfold natChars at h
    split at h
    · exact ⟨n, List.mem_singleton.mp h⟩
    · obtain h | h := List.mem_append.mp h
      · exact ih (n / 10) (by omega) h
      · exact ⟨n, List.mem_singleton.mp h⟩

/-- A natural number has a digit. -/
lemma natChars_ne_nil (n : Nat) : natChars n ≠ [] := by
  unfold natChars
  split <;> simp

/-- Reading on by one digit. -/
lemma digitsValue_append_singleton (start : Nat) (cs : List Char) (c : Char) :
    digitsValue start (cs ++ [c]) = 10 * digitsValue start cs + (digitValue? c).getD 0 := by
  simp [digitsValue]

/-- The digits of a natural number stand for it. -/
lemma digitsValue_natChars (n : Nat) : digitsValue 0 (natChars n) = n := by
  induction n using Nat.strong_induction_on with
  | _ n ih =>
    unfold natChars
    split
    · have : n % 10 = n := Nat.mod_eq_of_lt ‹_›
      simp [digitsValue, digitValue?_asciiDigit, this]
    · rw [digitsValue_append_singleton, ih (n / 10) (by omega), digitValue?_asciiDigit]
      simp only [Option.getD_some]
      omega

/-- A digit is a decimal digit. -/
lemma isDecimalDigit_asciiDigit (n : Nat) : isDecimalDigit (asciiDigit n) = true := by
  simp [isDecimalDigit, digitValue?_asciiDigit]

/-- The minus sign is no digit. -/
lemma asciiDigit_ne_minus (n : Nat) : asciiDigit n ≠ '-' := by
  have h := asciiDigit_mem n
  intro hn
  rw [hn] at h
  exact absurd h (by decide)

/-! ## Reading back -/

open Bar in
/-- The digits of a natural number read back as the number. -/
lemma readNat?_natChars (n : Nat) : readNat? (natChars n) = some n := by
  have hall : (natChars n).all isDecimalDigit = true := by
    rw [List.all_eq_true]
    intro c hc
    obtain ⟨d, rfl⟩ := exists_of_mem_natChars hc
    exact isDecimalDigit_asciiDigit d
  have hne : (natChars n).isEmpty = false := by simp [natChars_ne_nil]
  simp [readNat?, hall, hne, digitsValue_natChars]

open Bar in
/-- Without a minus sign at its start a text is read as a natural number. -/
lemma readPitch?_of_head_ne {c : Char} {cs : List Char} (h : c ≠ '-') :
    readPitch? (c :: cs) = (readNat? (c :: cs)).map fun n => (n : Int) := by
  unfold readPitch?
  split
  · rename_i heq
    exact absurd (List.cons.inj heq).1 h
  · rfl

open Bar in
/-- The text of an integer reads back as the integer. -/
lemma readPitch?_intChars (n : Int) : readPitch? (intChars n) = some n := by
  cases n with
  | ofNat n =>
    obtain ⟨c, cs, hcs⟩ := List.exists_cons_of_ne_nil (natChars_ne_nil n)
    have hc : c ∈ natChars n := by rw [hcs]; exact List.mem_cons_self
    obtain ⟨d, rfl⟩ := exists_of_mem_natChars hc
    rw [intChars, hcs, readPitch?_of_head_ne (asciiDigit_ne_minus d), ← hcs, readNat?_natChars]
    rfl
  | negSucc n =>
    rw [intChars, readPitch?, readNat?_natChars]
    rfl

/-- Integers are told apart by their texts. -/
lemma intChars_injective : Function.Injective intChars := by
  intro m n h
  have hm := readPitch?_intChars m
  rw [h, readPitch?_intChars] at hm
  exact (Option.some.inj hm).symm

/-- Integers are told apart by their texts. -/
lemma int_injective : Function.Injective int := by
  intro m n h
  have := congrArg String.toList h
  rw [int, int, String.toList_ofList, String.toList_ofList] at this
  exact intChars_injective this

/-- Natural numbers are told apart by their texts. -/
lemma nat_injective : Function.Injective nat := by
  intro m n h
  have := congrArg String.toList h
  rw [nat, nat, String.toList_ofList, String.toList_ofList] at this
  rw [← digitsValue_natChars m, this, digitsValue_natChars]

/-! ## Characters -/

/-- The characters of an integer's text. -/
lemma mem_of_mem_intChars {n : Int} {c : Char} (h : c ∈ intChars n) :
    c ∈ ['-', '0', '1', '2', '3', '4', '5', '6', '7', '8', '9'] := by
  have hnat : ∀ {m : Nat}, c ∈ natChars m →
      c ∈ ['-', '0', '1', '2', '3', '4', '5', '6', '7', '8', '9'] := by
    intro m hm
    obtain ⟨d, rfl⟩ := exists_of_mem_natChars hm
    exact List.mem_cons_of_mem _ (asciiDigit_mem d)
  cases n with
  | ofNat n => exact hnat h
  | negSucc n =>
    obtain rfl | h := List.mem_cons.mp h
    · exact List.mem_cons_self
    · exact hnat h

/-- The text of an integer is not empty. -/
lemma intChars_ne_nil (n : Int) : intChars n ≠ [] := by
  cases n with
  | ofNat n => exact natChars_ne_nil n
  | negSucc n => simp [intChars]

/-- The text of an integer is made of its characters. -/
@[simp]
lemma toList_int (n : Int) : (int n).toList = intChars n := by
  rw [int, String.toList_ofList]

/-- So is that of a natural number. -/
@[simp]
lemma toList_nat (n : Nat) : (nat n).toList = natChars n := by
  rw [nat, String.toList_ofList]

end PatternScore.Text
