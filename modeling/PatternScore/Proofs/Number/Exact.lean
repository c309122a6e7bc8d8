import Mathlib.Data.Rat.Floor
import Mathlib.Tactic
import PatternScore.Number.Scalar

/-!
# Exact arithmetic

Over the rationals the operations of `Scalar` are those of the field: nothing is rounded but where a
rounding is asked for, and no conversion fails. What the rationals have in common with numbers that
are rounded is that the finite ones compare as what they stand for (`Scalar.ComparesValues`).
-/

namespace PatternScore.Scalar

/-- The scalar zero is the rational one. -/
lemma rat_zero : (zero : Rat) = 0 := rfl

/-- A natural number as a scalar is that number. -/
lemma rat_ofNat (n : Nat) : (ofNat n : Rat) = n := rfl

/-- Every rational is a scalar, so the nearest one to it is itself. -/
lemma rat_nearest (q : Rat) : (nearest q : Rat) = q := rfl

/-- The greater of two scalars is their maximum. -/
lemma rat_max (x y : Rat) : Scalar.max x y = Max.max x y := by
  unfold Scalar.max
  split
  · rename_i h
    exact (max_eq_right (le_of_lt (show x < y from h))).symm
  · rename_i h
    exact (max_eq_left (not_lt.mp (show ¬ x < y from h))).symm

/-- The lesser of two scalars is their minimum. -/
lemma rat_min (x y : Rat) : Scalar.min x y = Min.min x y := by
  unfold Scalar.min
  split
  · rename_i h
    exact (min_eq_right (le_of_lt (show y < x from h))).symm
  · rename_i h
    exact (min_eq_left (not_lt.mp (show ¬ y < x from h))).symm

/-- The size of a scalar is its absolute value. -/
lemma rat_abs (x : Rat) : Scalar.abs x = |x| := by
  unfold Scalar.abs
  split
  · rename_i h
    have hx : x < 0 := h
    rw [abs_of_neg hx]
    exact zero_sub x
  · rename_i h
    have hx : ¬ x < 0 := h
    rw [abs_of_nonneg (not_lt.mp hx)]

/-- No integer is too large. -/
lemma rat_ofInt (n : Int) : (ofInt n : Except Failure Rat) = .ok n := rfl

/-- Division fails for a divisor of zero only, and is exact. -/
lemma rat_div {x y : Rat} (h : y ≠ 0) : Scalar.div x y = .ok (x / y) := by
  have hzero : isZero y = false := by
    simpa [isZero, value] using h
  rw [Scalar.div, hzero]
  rfl

/-- So is the quotient of two integers. -/
lemma rat_ratio {n d : Int} (h : d ≠ 0) : (ratio n d : Except Failure Rat) = .ok (n / d) := by
  rw [ratio, if_neg h]
  rfl

/-- Halves are rounded up. -/
lemma rat_roundHalfUp (x : Rat) : roundHalfUp x = .ok ⌊x + 1 / 2⌋ := rfl

/-- An integer is its own rounding. -/
lemma roundHalfUp_intCast (n : Int) : roundHalfUp (n : Rat) = .ok n := by
  have hfloor : ⌊(1 / 2 : Rat)⌋ = 0 := by norm_num
  rw [rat_roundHalfUp, Int.floor_intCast_add, hfloor, add_zero]

/-! ## Finite numbers -/

/-- A number is finite. -/
def IsFinite {τ : Type} [Scalar τ] (x : τ) : Prop :=
  ∃ q, value x = .finite q

/-- Finite numbers compare as what they stand for, which tells them apart unless it is zero, and
what is nearest to a billionth is finite and not negative. -/
class ComparesValues (τ : Type) [Scalar τ] : Prop where
  /-- The order. -/
  lt_iff : ∀ {x y : τ} {p q : Rat}, value x = .finite p → value y = .finite q → (x < y ↔ p < q)
  /-- What is not zero is told by its value. -/
  eq_of_value : ∀ {x y : τ} {q : Rat}, q ≠ 0 → value x = .finite q → value y = .finite q → x = y
  /-- A billionth. -/
  exists_billionth : ∃ e, 0 ≤ e ∧ value (nearest (1 / 1000000000) : τ) = .finite e

/-- Every rational is finite. -/
lemma isFinite_rat (x : Rat) : IsFinite x :=
  ⟨x, rfl⟩

/-- Exact numbers are their values. -/
instance : ComparesValues Rat where
  lt_iff hx hy := by
    obtain rfl := Value.finite.inj hx
    obtain rfl := Value.finite.inj hy
    exact Iff.rfl
  eq_of_value _ hx hy := Value.finite.inj (hx.trans hy.symm)
  exists_billionth := ⟨1 / 1000000000, by norm_num, rfl⟩

/-- The whole numbers up to a length are in the range of a type, and so are their roundings. -/
def InRange (τ : Type) [Scalar τ] (length : Int) : Prop :=
  ∀ n, 1 ≤ n → n ≤ length → ∃ (x : τ) (rounded : Int), ofInt n = .ok x ∧ roundHalfUp x = .ok rounded

/-- All whole numbers are exact. -/
lemma inRange_rat (length : Int) : InRange Rat length := fun n _ _ =>
  ⟨n, n, rat_ofInt n, roundHalfUp_intCast n⟩

/-- An integer becomes the number nearest to it, and fails to if that is not finite. -/
lemma ofInt_eq_ok_iff {τ : Type} [Scalar τ] {n : Int} {x : τ} :
    ofInt n = .ok x ↔ nearest n = x ∧ IsFinite x := by
  unfold ofInt IsFinite
  dsimp only
  constructor
  · intro h
    split at h
    · rename_i q hvalue
      cases h
      exact ⟨rfl, q, hvalue⟩
    · cases h
  · rintro ⟨rfl, q, hvalue⟩
    rw [hvalue]

/-- A quotient without remainder is a whole number. -/
lemma ratio_of_dvd {τ : Type} [Scalar τ] {n d : Int} {x : τ} (hd : d ≠ 0) (hdvd : d ∣ n)
    (h : ofInt (n / d) = .ok x) : ratio n d = .ok x := by
  obtain ⟨rfl, q, hvalue⟩ := ofInt_eq_ok_iff.mp h
  have hquotient : (n : Rat) / d = (n / d : Int) := (Int.cast_div hdvd (by exact_mod_cast hd)).symm
  rw [ratio, if_neg hd]
  dsimp only
  rw [hquotient, hvalue]

section Min

variable {τ : Type} [Scalar τ] {x y : τ} {p q : Rat}

/-- The lesser of two scalars is one of them. -/
lemma min_eq_or (x y : τ) : Scalar.min x y = x ∨ Scalar.min x y = y := by
  unfold Scalar.min
  split
  · exact .inr rfl
  · exact .inl rfl

/-- The smaller number has the smaller value. -/
lemma value_min [ComparesValues τ] (hx : value x = .finite p) (hy : value y = .finite q) :
    value (Scalar.min x y) = .finite (Min.min p q) := by
  unfold Scalar.min
  split
  · rename_i hlt
    rw [min_eq_right ((ComparesValues.lt_iff hy hx).mp hlt).le, hy]
  · rename_i hle
    rw [min_eq_left (not_lt.mp (mt (ComparesValues.lt_iff hy hx).mpr hle)), hx]

end Min

end PatternScore.Scalar
