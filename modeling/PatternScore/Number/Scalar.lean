import PatternScore.Failure
import PatternScore.Number.Numeral
import PatternScore.Number.Shortest

/-!
# Numbers that time is measured in

Onsets, durations, tempi and tolerances are numbers of one type that the whole program is generic
over. A `Scalar` type adds, subtracts, multiplies, divides and compares in its own way; every other
operation is derived from `nearest`, the number of the type nearest to a rational, and `value`, the
rational that a number stands for. Two types are scalars: the rationals, where all arithmetic is
exact, and the binary floating-point numbers of 64 bits, in which the program runs.
-/

namespace PatternScore

/-- A type of numbers that time can be measured in. -/
class Scalar (τ : Type) extends Add τ, Sub τ, Mul τ, LT τ, LE τ where
  /-- `x < y` can be tested. -/
  decidableLT : DecidableLT τ
  /-- `x ≤ y` can be tested. -/
  decidableLE : DecidableLE τ
  /-- The quotient by a divisor other than zero. -/
  quotient : τ → τ → τ
  /-- The number of the type nearest to a rational number. -/
  nearest : Rat → τ
  /-- What a number of the type stands for. -/
  value : τ → Value
  /-- The number that a numeral other than an integer stands for. -/
  ofDecimal : Bool → Nat → Int → τ
  /-- Infinity, if the type has it. -/
  infinity : Bool → Except Failure τ
  /-- The value that is not a number, if the type has it. -/
  undefined : Except Failure τ
  /-- The text of a number in messages. -/
  text : τ → String

namespace Scalar

variable {τ : Type} [Scalar τ]

/-- The order of scalars can be decided where a scalar type is given. -/
instance : DecidableLT τ := decidableLT

/-- So can their order or equality. -/
instance : DecidableLE τ := decidableLE

/-! ## Conversions -/

/-- A natural number as a scalar. -/
def ofNat (n : Nat) : τ :=
  nearest n

/-- An integer as a scalar, unless it is beyond the range of the type. -/
def ofInt (n : Int) : Except Failure τ :=
  let x : τ := nearest n
  match value x with
  | .finite _ => .ok x
  | _ => .error .integerTooLarge

/-- The number that a numeral stands for. -/
def ofNumeral : Numeral → Except Failure τ
  | .integer n => ofInt n
  | .decimal negative digits exponent => .ok (ofDecimal negative digits exponent)
  | .infinite negative => infinity negative
  | .undefined => undefined

/-- Zero. -/
def zero : τ :=
  nearest 0

/-! ## Division -/

/-- The number is zero. -/
def isZero (x : τ) : Bool :=
  value x == .finite 0

/-- The quotient, unless the divisor is zero. -/
def div (x y : τ) : Except Failure τ :=
  if isZero y then .error .divisionByZero else .ok (quotient x y)

/-- The quotient of two integers, rounded once. -/
def ratio (n d : Int) : Except Failure τ :=
  if d = 0 then .error .integerDivisionByZero
  else
    let x : τ := nearest (n / d)
    match value x with
    | .finite _ => .ok x
    | _ => .error .quotientTooLarge

/-! ## Rounding -/

/-- A rule that rounds the exact value of a number. -/
def rounded (rule : Rat → Int) (x : τ) : Except Failure Int :=
  match value x with
  | .finite q => .ok (rule q)
  | .infinite _ => .error .infinite
  | .undefined => .error .notANumber

/-- The nearest integer, halves going up; the half is added in the arithmetic of the type. -/
def roundHalfUp (x : τ) : Except Failure Int :=
  rounded Rat.floor (x + nearest (1 / 2))

/-- The nearest integer, halves going to the even neighbour. -/
def roundEven (x : τ) : Except Failure Int :=
  rounded roundHalfEven x

/-! ## Order -/

/-- The second number if it is greater, else the first. -/
def max (x y : τ) : τ :=
  if x < y then y else x

/-- The second number if it is smaller, else the first. -/
def min (x y : τ) : τ :=
  if y < x then y else x

/-- The distance from zero. -/
def abs (x : τ) : τ :=
  if x < zero then zero - x else x

/-- The number is positive. -/
def isPositive (x : τ) : Bool :=
  decide (zero < x)

end Scalar

/-! ## The two scalar types -/

/-- The rationals: all arithmetic is exact. -/
instance : Scalar Rat where
  decidableLT := inferInstance
  decidableLE := inferInstance
  quotient := (· / ·)
  nearest q := q
  value := .finite
  ofDecimal negative digits exponent :=
    let q := digits * powerOfTen exponent
    if negative then -q else q
  infinity _ := .error .infinite
  undefined := .error .notANumber
  text q := if q.den = 1 then Text.int q.num else Text.int q.num ++ "/" ++ Text.nat q.den

/-- The decimal `digits * 10 ^ exponent`, rounded once. What is beyond the range of the format is
told by its number of digits alone. -/
def Binary64.ofDecimal (negative : Bool) (digits : Nat) (exponent : Int) : Float :=
  let size := ((Text.natChars digits).length : Int) + exponent
  let x :=
    if digits = 0 || size < -400 then Float.ofBits 0
    else if 400 < size then Float.ofBits (UInt64.ofNat (2047 * Nat.pow 2 52))
    else nearest (digits * powerOfTen exponent)
  if negative then -x else x

/-- Binary floating-point numbers: every operation rounds once. -/
instance : Scalar Float where
  decidableLT := inferInstance
  decidableLE := inferInstance
  quotient := (· / ·)
  nearest := Binary64.nearest
  value := Binary64.value
  ofDecimal := Binary64.ofDecimal
  infinity negative :=
    .ok (Float.ofBits (UInt64.ofNat ((if negative then 4095 else 2047) * Nat.pow 2 52)))
  undefined := .ok (Float.ofBits (UInt64.ofNat (4095 * Nat.pow 2 51)))
  text := Binary64.text

end PatternScore
