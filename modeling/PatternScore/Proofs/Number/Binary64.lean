import PatternScore.Proofs.Number.Exact

/-!
# Finite binary floating-point numbers

A finite number of the format is a whole number of times the smallest positive one
(`Binary64.value_eq_finite_iff`). The fields of its bits say how often: they are those of a number
`m * 2 ^ e` that is written in the one way that the format has for it, so two numbers compare by
their exponents first and then by their digits (`Binary64.Canonical.compare_eq`). This is how the
machine compares them, so it compares what they stand for (`Binary64.lt_iff_signedCount`), and
nothing but zero is written in two ways (`Binary64.eq_of_value_eq`).
-/

namespace PatternScore.Binary64

open Float.Model (Format UnpackedFloat)
open Float.Model.UnpackedFloat (Sign)

/-! ## Writing a number -/

/-- The number `m * 2 ^ e` is written as the format writes it: with all its binary digits, unless it
is too small for that. -/
structure Canonical (m : Nat) (e : Int) : Prop where
  /-- There are at most 53 digits. -/
  lt : m < 2 ^ 53
  /-- The exponent is in the range of the format. -/
  le_exponent : -1074 ≤ e
  /-- Fewer digits go with the least exponent. -/
  normal : 2 ^ 52 ≤ m ∨ e = -1074

/-- How many of the smallest positive numbers `m * 2 ^ e` is. -/
def count (m : Nat) (e : Int) : Nat :=
  m * 2 ^ (e + 1074).toNat

section Canonical

variable {m n : Nat} {e k : Int}

/-- The number with the greater exponent is greater, whatever its digits are. -/
lemma Canonical.count_lt (h : Canonical m e) (h' : Canonical n k) (hlt : e < k) :
    count m e < count n k := by
  have hnormal : 2 ^ 52 ≤ n := by
    rcases h'.normal with hn | rfl
    · exact hn
    · exact absurd (hlt.trans_le h.le_exponent) (lt_irrefl _)
  have hle := h.le_exponent
  obtain ⟨gap, hgap⟩ : ∃ gap, (k + 1074).toNat = (e + 1074).toNat + 1 + gap :=
    ⟨(k - e - 1).toNat, by omega⟩
  calc count m e = m * 2 ^ (e + 1074).toNat := rfl
    _ < 2 ^ 53 * 2 ^ (e + 1074).toNat := Nat.mul_lt_mul_of_pos_right h.lt (Nat.two_pow_pos _)
    _ = 2 ^ 52 * 2 ^ ((e + 1074).toNat + 1) := by ring
    _ ≤ n * 2 ^ ((e + 1074).toNat + 1 + gap) :=
      Nat.mul_le_mul hnormal (Nat.pow_le_pow_right two_pos (Nat.le_add_right _ _))
    _ = count n k := by rw [count, hgap]

/-- Numbers are compared by their exponents first. -/
lemma Canonical.compare_eq (h : Canonical m e) (h' : Canonical n k) :
    (compare e k).then (compare m n) = compare (count m e : Int) (count n k) := by
  rcases lt_trichotomy e k with hlt | rfl | hgt
  · have hcount : (count m e : Int) < count n k := by exact_mod_cast h.count_lt h' hlt
    rw [compare_lt_iff_lt.mpr hlt, compare_lt_iff_lt.mpr hcount]
    rfl
  · have hscale : StrictMono fun m : Nat => (count m e : Int) :=
      Nat.strictMono_cast.comp fun _ _ hlt => Nat.mul_lt_mul_of_pos_right hlt (Nat.two_pow_pos _)
    rw [compare_eq_iff_eq.mpr rfl, ← cmp_eq_compare, ← cmp_eq_compare, hscale.cmp_map_eq]
    rfl
  · have hcount : (count n k : Int) < count m e := by exact_mod_cast h'.count_lt h hgt
    rw [compare_gt_iff_gt.mpr hgt, compare_gt_iff_gt.mpr hcount]
    rfl

/-- There is one way to write a number. -/
lemma Canonical.eq_of_count_eq (h : Canonical m e) (h' : Canonical n k)
    (heq : count m e = count n k) : m = n ∧ e = k := by
  rcases lt_trichotomy e k with hlt | rfl | hgt
  · exact absurd heq (h.count_lt h' hlt).ne
  · exact ⟨Nat.eq_of_mul_eq_mul_right (Nat.two_pow_pos _) heq, rfl⟩
  · exact absurd heq (h'.count_lt h hgt).ne'

end Canonical

/-! ## Reading the bits -/

/-- The bits of a number. -/
abbrev bits (x : Float) : BitVec (Format.numBits .binary64) :=
  x.toBits.toBitVec

/-- The exponent as it stands in the bits; the greatest one is that of what is not finite. -/
def exponent (x : Float) : Nat :=
  x.toBits.toNat / Nat.pow 2 52 % Nat.pow 2 11

/-- The digits behind the point. -/
def fraction (x : Float) : Nat :=
  x.toBits.toNat % Nat.pow 2 52

variable {x y : Float} {q : Rat} {m : Nat} {e : Int}

/-- The digits behind the point are 52 bits. -/
lemma fraction_lt (x : Float) : fraction x < 2 ^ 52 :=
  Nat.mod_lt _ (by decide)

/-- With the least exponent no digit stands before the point. -/
lemma parts_of_eq_zero (h : exponent x = 0) : parts x = (fraction x, -1074) :=
  if_pos (beq_iff_eq.mpr h)

/-- With any other exponent a one stands before the point. -/
lemma parts_of_ne_zero (h : exponent x ≠ 0) :
    parts x = (fraction x + 2 ^ 52, (exponent x : Int) - 1075) :=
  if_neg (mt beq_iff_eq.mp h)

/-- The digits and the exponent of a number are those that the format gives it. -/
lemma canonical_parts (x : Float) : Canonical (parts x).1 (parts x).2 := by
  have hfraction := fraction_lt x
  by_cases h : exponent x = 0
  · rw [parts_of_eq_zero h]
    exact ⟨by omega, le_rfl, .inr rfl⟩
  · rw [parts_of_ne_zero h]
    exact ⟨by omega, by omega, .inl (Nat.le_add_left _ _)⟩

/-- The smallest positive number. -/
def smallest : Rat :=
  (2 : Rat) ^ (-1074 : Int)

/-- The smallest positive number is what it is called. -/
lemma smallest_pos : 0 < smallest :=
  zpow_pos two_pos _

/-- The sign of a number. -/
def sign (x : Float) : Sign :=
  if isNegative x then .negative else .positive

/-- How many of the smallest positive numbers a finite number is. -/
def signedCount (x : Float) : Int :=
  (sign x).apply (count (parts x).1 (parts x).2)

/-- As many of the smallest numbers as are counted make up the number. -/
lemma count_mul_smallest (m : Nat) (he : -1074 ≤ e) : (count m e : Rat) * smallest = m * 2 ^ e := by
  have hexponent : e = ((e + 1074).toNat : Int) + -1074 := by omega
  conv_rhs => rw [hexponent, zpow_add₀ two_ne_zero, zpow_natCast]
  rw [count, smallest, Nat.cast_mul, Nat.cast_pow, Nat.cast_ofNat, mul_assoc]

/-- An integer times a power of two, as it is written for either sign of the exponent. -/
lemma finite_of_parts (n e : Int) :
    (if 0 ≤ e then Value.finite ((n * Nat.pow 2 e.toNat : Int) : Rat)
      else .finite (mkRat n (Nat.pow 2 (-e).toNat))) = .finite (n * (2 : Rat) ^ e) := by
  split
  · rename_i hpos
    lift e to Nat using hpos
    simp
  · rename_i hneg
    obtain ⟨k, rfl⟩ : ∃ k : Nat, e = -k := ⟨(-e).toNat, by omega⟩
    rw [Rat.mkRat_eq_div]
    simp [zpow_neg, div_eq_mul_inv]

/-- A finite number is so many of the smallest positive ones. -/
lemma value_eq_finite_iff :
    value x = .finite q ↔ exponent x ≠ 2047 ∧ q = signedCount x * smallest := by
  set signed : Int := if isNegative x then -(parts x).1 else (parts x).1 with hsigned
  have hcounts : (signedCount x : Rat) * smallest = signed * (2 : Rat) ^ (parts x).2 := by
    have hcount := count_mul_smallest (parts x).1 (canonical_parts x).le_exponent
    rw [signedCount, sign, hsigned]
    split
    · simp only [Sign.apply, Int.cast_neg, Int.cast_natCast, neg_mul, hcount]
    · simp only [Sign.apply, Int.cast_natCast, hcount]
  have hvalue : value x = if exponent x == 2047 then
      if fraction x == 0 then .infinite (isNegative x) else .undefined
    else if 0 ≤ (parts x).2 then .finite ((signed * Nat.pow 2 (parts x).2.toNat : Int) : Rat)
    else .finite (mkRat signed (Nat.pow 2 (-(parts x).2).toNat)) := rfl
  rw [hvalue, hcounts, finite_of_parts]
  by_cases hexponent : exponent x = 2047
  · rw [if_pos (by simpa using hexponent)]
    constructor
    · intro h
      split at h <;> cases h
    · rintro ⟨hne, -⟩
      exact absurd hexponent hne
  · rw [if_neg (by simpa using hexponent), Value.finite.injEq]
    constructor
    · rintro rfl
      exact ⟨hexponent, rfl⟩
    · rintro ⟨-, rfl⟩
      rfl

/-- A number is finite unless its exponent is the greatest one. -/
lemma isFinite_iff : Scalar.IsFinite x ↔ exponent x ≠ 2047 := by
  constructor
  · rintro ⟨q, hvalue⟩
    exact (value_eq_finite_iff.mp hvalue).1
  · intro h
    exact ⟨_, value_eq_finite_iff.mpr ⟨h, rfl⟩⟩

/-- Finiteness can be read off the bits. -/
instance (x : Float) : Decidable (Scalar.IsFinite x) :=
  decidable_of_iff _ isFinite_iff.symm

/-! ## Comparing -/

section Fields

variable (x : Float)

/-- Unpacking takes the exponent as it stands in the bits. -/
lemma toNat_unpackExponent :
    (UnpackedFloat.unpackExponent (bits x)).toNat = exponent x := by
  change (x.toBits.toNat >>> 52) % 2 ^ 11 = _
  rw [Nat.shiftRight_eq_div_pow]
  rfl

/-- It takes the digits behind the point as they stand there. -/
lemma toNat_unpackMantissa :
    (UnpackedFloat.unpackMantissa (bits x)).toNat = fraction x :=
  rfl

/-- It takes the sign from the highest bit. -/
lemma ofBitVec_unpackSign :
    Sign.ofBitVec (UnpackedFloat.unpackSign (bits x)) = sign x := by
  have hbits := x.toBits.toNat_lt
  have hbit : (UnpackedFloat.unpackSign (bits x)).toNat =
      x.toBits.toNat / 2 ^ 63 := by
    change (x.toBits.toNat >>> 63) % 2 ^ 1 = _
    rw [Nat.shiftRight_eq_div_pow]
    omega
  have hpositive : UnpackedFloat.unpackSign (bits x) = 0#1 ↔
      ¬ isNegative x = true := by
    rw [← BitVec.toNat_inj, hbit, isNegative, decide_eq_true_eq]
    change _ = 0 ↔ ¬ 2 ^ 63 ≤ _
    omega
  unfold Sign.ofBitVec sign
  by_cases hneg : isNegative x = true
  · rw [if_neg (by simpa [hpositive] using hneg), if_pos hneg]
  · rw [if_pos (hpositive.mpr hneg), if_neg hneg]

end Fields

/-- What bits are unpacked to is so many of the smallest positive numbers. -/
def Counts : UnpackedFloat → Int → Prop
  | .zero _, n => n = 0
  | .finite s m e _, n => Canonical m e ∧ n = s.apply (count m e)
  | _, _ => False

/-- Counts compare as what is counted. -/
lemma Counts.compare_eq {u v : UnpackedFloat} {n k : Int} (h : Counts u n) (h' : Counts v k) :
    u.compare v = some (compare n k) := by
  have hcount {m : Nat} (e : Int) (hm : 0 < m) : 0 < (count m e : Int) := by
    exact_mod_cast Nat.mul_pos hm (Nat.two_pow_pos _)
  cases u with
  | infinity => cases h
  | notANumber => cases h
  | zero s =>
    obtain rfl : n = 0 := h
    cases v with
    | infinity => cases h'
    | notANumber => cases h'
    | zero t =>
      obtain rfl : k = 0 := h'
      rfl
    | finite t m e hm =>
      obtain ⟨-, rfl⟩ := h'
      have hpos := hcount e hm
      cases t with
      | negative => exact congrArg some (compare_gt_iff_gt.mpr (neg_neg_of_pos hpos)).symm
      | positive => exact congrArg some (compare_lt_iff_lt.mpr hpos).symm
  | finite s m e hm =>
    obtain ⟨hcanonical, rfl⟩ := h
    have hpos := hcount e hm
    cases v with
    | infinity => cases h'
    | notANumber => cases h'
    | zero t =>
      obtain rfl : k = 0 := h'
      cases s with
      | negative => exact congrArg some (compare_lt_iff_lt.mpr (neg_neg_of_pos hpos)).symm
      | positive => exact congrArg some (compare_gt_iff_gt.mpr hpos).symm
    | finite t m' e' hm' =>
      obtain ⟨hcanonical', rfl⟩ := h'
      have hpos' := hcount e' hm'
      cases s with
      | negative =>
        cases t with
        | negative =>
          have hneg : StrictAnti fun n : Int => -n := fun _ _ hlt => neg_lt_neg hlt
          refine congrArg some ?_
          rw [hcanonical.compare_eq hcanonical', ← cmp_eq_compare, ← cmp_eq_compare, cmp_swap]
          exact (hneg.cmp_map_eq _ _).symm
        | positive =>
          exact congrArg some (compare_lt_iff_lt.mpr ((neg_neg_of_pos hpos).trans hpos')).symm
      | positive =>
        cases t with
        | negative =>
          exact congrArg some (compare_gt_iff_gt.mpr ((neg_neg_of_pos hpos').trans hpos)).symm
        | positive => exact congrArg some (hcanonical.compare_eq hcanonical')

/-- The fields of a finite number count it. -/
lemma counts_unpack (h : exponent x ≠ 2047) : Counts x.toModel.unpack (signedCount x) := by
  have hexponent := toNat_unpackExponent x
  have hfraction := toNat_unpackMantissa x
  have hcanonical := canonical_parts x
  have hbias : (Format.exponentBias .binary64 : Int) + (52 : Nat) = 1075 := rfl
  have hunpack : x.toModel.unpack = UnpackedFloat.unpack .binary64 (bits x) := rfl
  have hfinite : UnpackedFloat.unpackExponent (bits x) ≠ -1#11 := by
    intro htop
    rw [htop] at hexponent
    exact h hexponent.symm
  rw [hunpack, signedCount]
  unfold UnpackedFloat.unpack
  dsimp only
  rw [if_neg hfinite, ofBitVec_unpackSign, hexponent, hbias]
  by_cases hzero : exponent x = 0
  · have hleast : UnpackedFloat.unpackExponent (bits x) = 0#11 :=
      BitVec.eq_of_toNat_eq (hexponent.trans hzero)
    have hsubnormal : (exponent x : Int) - 1075 + 1 = -1074 := by omega
    rw [parts_of_eq_zero hzero] at hcanonical ⊢
    rw [if_pos hleast]
    by_cases hnone : UnpackedFloat.unpackMantissa (bits x) = 0#52
    · have hcount : count (fraction x) (-1074) = 0 := by
        rw [count, ← hfraction, hnone]
        exact Nat.zero_mul _
      rw [dif_pos hnone, hcount]
      cases sign x <;> rfl
    · rw [dif_neg hnone, hsubnormal]
      exact ⟨hcanonical, rfl⟩
  · have hlarge : UnpackedFloat.unpackExponent (bits x) ≠ 0#11 := by
      intro hleast
      rw [hleast] at hexponent
      exact hzero hexponent.symm
    have hdigit (b : BitVec 52) : (1#1 ++ b).toNat = b.toNat + 2 ^ 52 := by
      rw [BitVec.toNat_append, ← Nat.shiftLeft_add_eq_or_of_lt b.isLt, Nat.shiftLeft_eq]
      exact Nat.add_comm _ _
    rw [parts_of_ne_zero hzero] at hcanonical ⊢
    rw [if_neg hlarge]
    refine ⟨?_, ?_⟩
    · rw [hdigit]
      exact hcanonical
    · rw [hdigit]
      rfl

/-- Finite numbers are compared by what they stand for. -/
lemma lt_iff_signedCount (hx : exponent x ≠ 2047) (hy : exponent y ≠ 2047) :
    x < y ↔ signedCount x < signedCount y := by
  have hlt : x < y ↔ x.toModel.unpack.compare y.toModel.unpack = some .lt := by
    change decide (UnpackedFloat.lt _ _ = true) = true ↔ _
    simp [UnpackedFloat.lt]
  rw [hlt, (counts_unpack hx).compare_eq (counts_unpack hy), Option.some.injEq, compare_lt_iff_lt]

/-! ## Telling numbers apart -/

/-- The parts of a number tell its fields. -/
lemma fields_eq_of_parts_eq (h : parts x = parts y) :
    exponent x = exponent y ∧ fraction x = fraction y := by
  have hx := fraction_lt x
  have hy := fraction_lt y
  by_cases hzero : exponent x = 0 <;> by_cases hzero' : exponent y = 0
  · rw [parts_of_eq_zero hzero, parts_of_eq_zero hzero', Prod.mk.injEq] at h
    omega
  · rw [parts_of_eq_zero hzero, parts_of_ne_zero hzero', Prod.mk.injEq] at h
    omega
  · rw [parts_of_ne_zero hzero, parts_of_eq_zero hzero', Prod.mk.injEq] at h
    omega
  · rw [parts_of_ne_zero hzero, parts_of_ne_zero hzero', Prod.mk.injEq] at h
    omega

/-- A number has the negative sign if and only if the highest bit is set. -/
lemma sign_eq_negative_iff (x : Float) : sign x = .negative ↔ 2 ^ 63 ≤ x.toBits.toNat := by
  unfold sign isNegative
  change (if decide (2 ^ 63 ≤ _) = true then _ else _) = _ ↔ _
  split <;> simp_all

/-- Numbers with the same sign and the same parts are the same. -/
lemma eq_of_parts_eq (hsign : sign x = sign y) (hparts : parts x = parts y) : x = y := by
  obtain ⟨hexponent, hfraction⟩ := fields_eq_of_parts_eq hparts
  have hnegative : 2 ^ 63 ≤ x.toBits.toNat ↔ 2 ^ 63 ≤ y.toBits.toNat := by
    rw [← sign_eq_negative_iff, ← sign_eq_negative_iff, hsign]
  have hbits : x.toBits = y.toBits := by
    have hx := x.toBits.toNat_lt
    have hy := y.toBits.toNat_lt
    change x.toBits.toNat / 2 ^ 52 % 2 ^ 11 = y.toBits.toNat / 2 ^ 52 % 2 ^ 11 at hexponent
    change x.toBits.toNat % 2 ^ 52 = y.toBits.toNat % 2 ^ 52 at hfraction
    apply UInt64.toNat.inj
    omega
  cases x with
  | ofModel u =>
    cases y with
    | ofModel v =>
      cases u
      cases v
      cases hbits
      rfl

/-- A finite number that is not zero is told by its value. -/
lemma eq_of_value_eq (hq : q ≠ 0) (hx : value x = .finite q) (hy : value y = .finite q) :
    x = y := by
  obtain ⟨-, rfl⟩ := value_eq_finite_iff.mp hx
  obtain ⟨-, hvalue⟩ := value_eq_finite_iff.mp hy
  have hcounts : signedCount x = signedCount y := by
    exact_mod_cast mul_right_cancel₀ smallest_pos.ne' hvalue
  have hne : signedCount x ≠ 0 := fun hzero => hq (by rw [hzero, Int.cast_zero, zero_mul])
  unfold signedCount at hcounts hne
  have hsame : sign x = sign y ∧
      count (parts x).1 (parts x).2 = count (parts y).1 (parts y).2 := by
    cases hsx : sign x <;> cases hsy : sign y <;>
      simp only [hsx, hsy, Sign.apply] at hcounts hne <;> simp <;> omega
  obtain ⟨hm, he⟩ := (canonical_parts x).eq_of_count_eq (canonical_parts y) hsame.2
  exact eq_of_parts_eq hsame.1 (Prod.ext hm he)

/-- Finite numbers compare as what they stand for. -/
instance : Scalar.ComparesValues Float where
  lt_iff hx hy := by
    obtain ⟨hfinite, rfl⟩ := value_eq_finite_iff.mp hx
    obtain ⟨hfinite', rfl⟩ := value_eq_finite_iff.mp hy
    rw [mul_lt_mul_iff_left₀ smallest_pos, Int.cast_lt]
    exact lt_iff_signedCount hfinite hfinite'
  eq_of_value := eq_of_value_eq
  exists_billionth := by
    have hfinite : exponent (nearest (1 / 1000000000)) ≠ 2047 := by decide +kernel
    have hpositive : 0 ≤ signedCount (nearest (1 / 1000000000)) := by decide +kernel
    refine ⟨_, ?_, value_eq_finite_iff.mpr ⟨hfinite, rfl⟩⟩
    exact mul_nonneg (by exact_mod_cast hpositive) smallest_pos.le

end PatternScore.Binary64
