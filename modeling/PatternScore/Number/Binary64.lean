import PatternScore.Number.Value

/-!
# Binary floating-point numbers of 64 bits

A number of this format is `± m * 2 ^ e` with `m < 2 ^ 53` and `-1074 ≤ e ≤ 971`, an infinity, or
not a number. `value` decodes it exactly; `nearest` rounds a rational number to it, a tie going to
the even `m`, and what is too large going to infinity.
-/

namespace PatternScore.Binary64

/-- Two to any integer power. -/
def powerOfTwo (e : Int) : Rat :=
  if 0 ≤ e then (Nat.pow 2 e.toNat : Rat) else mkRat 1 (Nat.pow 2 (-e).toNat)

/-- The numbers `m` and `e` of a finite number. -/
def parts (x : Float) : Nat × Int :=
  let bits := x.toBits.toNat
  let exponent : Nat := bits / Nat.pow 2 52 % Nat.pow 2 11
  let fraction : Nat := bits % Nat.pow 2 52
  if exponent == 0 then (fraction, -1074) else (fraction + Nat.pow 2 52, (exponent : Int) - 1075)

/-- The sign bit is set. -/
def isNegative (x : Float) : Bool :=
  Nat.pow 2 63 ≤ x.toBits.toNat

/-- What a number of the format stands for. -/
def value (x : Float) : Value :=
  let bits := x.toBits.toNat
  if bits / Nat.pow 2 52 % Nat.pow 2 11 == 2047 then
    if bits % Nat.pow 2 52 == 0 then .infinite (isNegative x) else .undefined
  else
    let (m, e) := parts x
    let signed : Int := if isNegative x then -m else m
    if 0 ≤ e then .finite ((signed * Nat.pow 2 e.toNat : Int) : Rat)
    else .finite (mkRat signed (Nat.pow 2 (-e).toNat))

/-- The positive number `m * 2 ^ e`, with `m ≤ 2 ^ 53` and `-1074 ≤ e`; infinity when that is too
large. -/
def ofParts (m : Nat) (e : Int) : Float :=
  let (m, e) := if m == Nat.pow 2 53 then (Nat.pow 2 52, e + 1) else (m, e)
  if m < Nat.pow 2 52 then Float.ofBits (UInt64.ofNat m)
  else if 972 ≤ e then Float.ofBits (UInt64.ofNat (2047 * Nat.pow 2 52))
  else Float.ofBits (UInt64.ofNat ((e + 1075).toNat * Nat.pow 2 52 + (m - Nat.pow 2 52)))

/-- The number of the format nearest to a positive rational number. -/
def nearestPositive (q : Rat) : Float :=
  let size : Int := (Nat.log2 q.num.natAbs : Int) - Nat.log2 q.den
  let e := max (size - 53) (-1074)
  let fits := (q / powerOfTwo e).floor < Nat.pow 2 53
  let e := if fits then e else e + 1
  ofParts (roundHalfEven (q / powerOfTwo e)).toNat e

/-- The number of the format nearest to a rational number. -/
def nearest (q : Rat) : Float :=
  if q.den == 1 && q.num.natAbs < Nat.pow 2 53 then Float.ofInt q.num
  else if q.num == 0 then Float.ofBits 0
  else if q.num < 0 then -nearestPositive (-q)
  else nearestPositive q

end PatternScore.Binary64
