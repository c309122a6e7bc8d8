import Mathlib.Tactic
import PatternScore.Number.Scalar
import PatternScore.Proofs.Text.Decimal
import PatternScore.Text.Blank

/-!
# Texts of one line

A text is unbroken if no character of it ends a line, and it is a line if it is unbroken up to a
line feed at its end. The texts of integers are unbroken, and so are those of the numbers that time
is measured in, both of the rationals and of the binary numbers (`Scalar.Unbroken`).
-/

namespace PatternScore

namespace Text

/-! ## Lines -/

/-- No character of the text ends a line. -/
def Unbroken (s : String) : Prop :=
  ∀ c ∈ s.toList, isLineEnd c = false

/-- Each character can be looked at. -/
instance (s : String) : Decidable (Unbroken s) :=
  List.decidableBAll _ _

/-- Two texts together are unbroken exactly if both are. -/
lemma unbroken_append {s t : String} : Unbroken (s ++ t) ↔ Unbroken s ∧ Unbroken t := by
  unfold Unbroken
  rw [String.toList_append]
  exact List.forall_mem_append

/-- A text is unbroken if none of its characters ends a line. -/
lemma unbroken_ofList {cs : List Char} :
    Unbroken (String.ofList cs) ↔ ∀ c ∈ cs, isLineEnd c = false := by
  rw [Unbroken, String.toList_ofList]

/-- The text is one line: the only character that ends a line is the line feed at its end. -/
def IsLine (s : String) : Prop :=
  ∃ line, Unbroken line ∧ s = line ++ "\n"

/-- With a line feed behind it, a text is one line exactly if it is unbroken. -/
lemma isLine_append {s : String} : IsLine (s ++ "\n") ↔ Unbroken s := by
  constructor
  · rintro ⟨line, hline, heq⟩
    have hchars := congrArg String.toList heq
    rw [String.toList_append, String.toList_append] at hchars
    rw [String.toList_injective (List.append_cancel_right hchars)]
    exact hline
  · intro h
    exact ⟨s, h, rfl⟩

/-! ## Numbers -/

/-- The characters of numbers. -/
def numberChars : List Char :=
  ['-', '+', '.', '/', 'e', '0', '1', '2', '3', '4', '5', '6', '7', '8', '9']

/-- Characters of numbers end no line. -/
lemma isLineEnd_of_mem_numberChars {c : Char} (h : c ∈ numberChars) : isLineEnd c = false := by
  have hall : (numberChars.all fun c => !isLineEnd c) = true := by decide
  simpa using List.all_eq_true.mp hall c h

/-- Natural numbers are written with characters of numbers. -/
lemma natChars_subset (n : Nat) : natChars n ⊆ numberChars := by
  intro c hc
  obtain ⟨d, rfl⟩ := exists_of_mem_natChars hc
  have hdigits : ['0', '1', '2', '3', '4', '5', '6', '7', '8', '9'] ⊆ numberChars := by decide
  exact hdigits (asciiDigit_mem d)

/-- What is written with characters of numbers is unbroken. -/
lemma unbroken_ofList_of_subset {cs : List Char} (h : cs ⊆ numberChars) :
    Unbroken (String.ofList cs) := by
  rw [unbroken_ofList]
  intro c hc
  exact isLineEnd_of_mem_numberChars (h hc)

/-- The text of a natural number is unbroken. -/
lemma unbroken_nat (n : Nat) : Unbroken (nat n) :=
  unbroken_ofList_of_subset (natChars_subset n)

/-- So is that of an integer, its sign included. -/
lemma unbroken_int (n : Int) : Unbroken (int n) := by
  apply unbroken_ofList_of_subset
  intro c hc
  have hdigits : ['-', '0', '1', '2', '3', '4', '5', '6', '7', '8', '9'] ⊆ numberChars := by decide
  exact hdigits (mem_of_mem_intChars hc)

end Text

open Text

/-- The numbers of a scalar type have unbroken texts. -/
class Scalar.Unbroken (τ : Type) [Scalar τ] : Prop where
  /-- The text of a number is unbroken. -/
  text_unbroken : ∀ x : τ, Text.Unbroken (Scalar.text x)

/-- Rationals are written as integers, or as two of them with a slash between. -/
instance : Scalar.Unbroken Rat where
  text_unbroken x := by
    show Text.Unbroken (if x.den = 1 then int x.num else int x.num ++ "/" ++ nat x.den)
    split
    · exact unbroken_int _
    · rw [unbroken_append, unbroken_append]
      exact ⟨⟨unbroken_int _, by decide⟩, unbroken_nat _⟩

namespace Binary64

/-- Digits stay when the zeros at their end are left out. -/
lemma withoutZeros_subset (digits : List Char) (k : Int) : (withoutZeros digits k).1 ⊆ digits := by
  intro c hc
  have hkept := (List.dropWhile_sublist _).subset (List.mem_reverse.mp hc)
  exact List.mem_reverse.mp hkept

/-- A decimal is written in the characters of numbers. -/
lemma decimalChars_subset {digits : List Char} (h : digits ⊆ numberChars) (k : Int) :
    decimalChars digits k ⊆ numberChars := by
  have hcons {c : Char} {cs : List Char} (hc : c ∈ numberChars) (hcs : cs ⊆ numberChars) :
      c :: cs ⊆ numberChars :=
    List.cons_subset.mpr ⟨hc, hcs⟩
  have happend {cs ds : List Char} (hcs : cs ⊆ numberChars) (hds : ds ⊆ numberChars) :
      cs ++ ds ⊆ numberChars :=
    List.append_subset.mpr ⟨hcs, hds⟩
  have hzeros (n : Nat) : List.replicate n '0' ⊆ numberChars := by
    intro c hc
    rw [List.eq_of_mem_replicate hc]
    decide
  unfold decimalChars
  dsimp only
  split
  · split
    · exact hcons (by decide) (hcons (by decide) (happend (hzeros _) h))
    · have hshown (n : Nat) : digits ++ List.replicate n '0' ⊆ numberChars := happend h (hzeros n)
      apply happend
      · exact List.Subset.trans (List.take_sublist _ _).subset (hshown _)
      · apply hcons (by decide)
        split
        · decide
        · exact List.Subset.trans (List.drop_sublist _ _).subset (hshown _)
  · apply happend
    · split
      · exact List.nil_subset _
      · exact h
      · obtain ⟨hd, hds⟩ := List.cons_subset.mp h
        exact hcons hd (hcons (by decide) hds)
    · apply hcons (by decide)
      apply hcons
      · split <;> decide
      · split
        · exact hcons (by decide) (natChars_subset _)
        · exact natChars_subset _

/-- Without the zeros at its end a number is written in the characters of numbers. -/
lemma decimalChars_withoutZeros_subset (n : Nat) (k : Int) :
    decimalChars (withoutZeros (natChars n) k).1 (withoutZeros (natChars n) k).2 ⊆ numberChars := by
  apply decimalChars_subset
  exact List.Subset.trans (withoutZeros_subset _ _) (natChars_subset n)

/-- The shortest text of a floating-point number is made of digits, a sign, a point and an exponent,
or it is a word. -/
lemma unbroken_text (x : Float) : Unbroken (text x) := by
  unfold text
  split
  · decide
  · split <;> decide
  · rename_i q _
    have hdigits : (if q == 0 then ['0', '.', '0'] else positiveChars x) ⊆ numberChars := by
      split
      · decide
      · exact decimalChars_withoutZeros_subset _ _
    apply unbroken_ofList_of_subset
    split
    · exact List.cons_subset.mpr ⟨by decide, hdigits⟩
    · exact hdigits

end Binary64

/-- The texts of floating-point numbers are unbroken. -/
instance : Scalar.Unbroken Float where
  text_unbroken x := Binary64.unbroken_text x

end PatternScore
