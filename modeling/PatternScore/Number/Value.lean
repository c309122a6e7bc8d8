/-!
# Exact values of numbers

What a number of a finite number type stands for: a rational number, an infinity, or nothing. The
three roundings of the program are rules on rational numbers and are stated here once.
-/

namespace PatternScore

/-- The exact value of a number. -/
inductive Value where
  /-- A rational number. -/
  | finite (q : Rat)
  /-- Infinity with a sign. -/
  | infinite (negative : Bool)
  /-- No value. -/
  | undefined
  deriving DecidableEq

/-- The integer nearest to a rational number; of two that are equally near, the even one. -/
def roundHalfEven (q : Rat) : Int :=
  let below := q.floor
  let rest := q - below
  if rest < 1 / 2 then below
  else if 1 / 2 < rest then below + 1
  else if below % 2 == 0 then below
  else below + 1

/-- The integer that is left when the fraction is cut off. -/
def truncate (q : Rat) : Int :=
  q.num.tdiv q.den

/-- A power of ten with any integer exponent. -/
def powerOfTen (k : Int) : Rat :=
  if 0 ≤ k then (Nat.pow 10 k.toNat : Rat) else 1 / (Nat.pow 10 (-k).toNat : Rat)

end PatternScore
