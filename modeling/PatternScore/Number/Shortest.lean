import PatternScore.Number.Binary64
import PatternScore.Text.Digit

/-!
# Shortest decimal text of binary numbers

The decimal with the fewest digits that still rounds to the number, and of those the one nearest to
it; of two that are equally near, the even one. It is written with a point as long as its exponent
is from -4 to 15, and with a power of ten otherwise.
-/

namespace PatternScore.Binary64

open Text

/-- The reals that round to a positive number: the ends of the interval, and whether the ends
belong to it. -/
structure Neighbourhood where
  /-- The number itself. -/
  centre : Rat
  /-- Half-way to the number below. -/
  lower : Rat
  /-- Half-way to the number above. -/
  upper : Rat
  /-- A tie goes to the even number, so the ends of an even number's interval belong to it. -/
  closed : Bool

/-- The reals that round to `m * 2 ^ e`. -/
def Neighbourhood.ofParts (m : Nat) (e : Int) : Neighbourhood :=
  let unit := powerOfTwo e
  let below : Rat := if m == Nat.pow 2 52 && -1074 < e then 1 / 4 else 1 / 2
  { centre := m * unit
    lower := (m - below) * unit
    upper := (m + 1 / 2) * unit
    closed := m % 2 == 0 }

/-- The real rounds to the number. -/
def Neighbourhood.contains (n : Neighbourhood) (q : Rat) : Bool :=
  if n.closed then n.lower ≤ q && q ≤ n.upper else n.lower < q && q < n.upper

/-- The exponent of the leading decimal digit of a positive rational number. -/
def leadingExponent (q : Rat) : Int :=
  let guess : Int := ((natChars q.num.natAbs).length : Int) - (natChars q.den).length
  if powerOfTen guess ≤ q then guess else guess - 1

/-- The multiple of `10 ^ k` nearest to the centre among those that round to the number. -/
def Neighbourhood.onGrid? (n : Neighbourhood) (k : Int) : Option Nat :=
  let unit := powerOfTen k
  let scaled := n.centre / unit
  let below := scaled.floor.toNat
  match n.contains (below * unit), n.contains ((below + 1 : Nat) * unit) with
  | false, false => none
  | true, false => some below
  | false, true => some (below + 1)
  | true, true => some (roundHalfEven scaled).toNat

/-- The first grid, from `k` downwards, with a point that rounds to the number. Seventeen digits
always suffice. -/
def Neighbourhood.shortestFrom (n : Neighbourhood) (k : Int) : Nat → Nat × Int
  | 0 => ((roundHalfEven (n.centre / powerOfTen k)).toNat, k)
  | more + 1 =>
    match n.onGrid? k with
    | some digits => (digits, k)
    | none => n.shortestFrom (k - 1) more

/-- The digits of a number without the zeros at the end, each of which raises the exponent. -/
def withoutZeros (digits : List Char) (k : Int) : List Char × Int :=
  let kept := (digits.reverse.dropWhile (· == '0')).reverse
  (kept, k + (digits.length - kept.length : Nat))

/-- The text of `digits * 10 ^ k`. -/
def decimalChars (digits : List Char) (k : Int) : List Char :=
  let exponent := digits.length + k - 1
  if -4 ≤ exponent && exponent < 16 then
    if exponent < 0 then
      '0' :: '.' :: List.replicate (-exponent - 1).toNat '0' ++ digits
    else
      let whole := (exponent + 1).toNat
      let shown := digits ++ List.replicate (whole - digits.length) '0'
      let fraction := shown.drop whole
      shown.take whole ++ '.' :: (if fraction.isEmpty then ['0'] else fraction)
  else
    let mantissa :=
      match digits with
      | [] => []
      | [d] => [d]
      | d :: ds => d :: '.' :: ds
    let size := natChars exponent.natAbs
    let size := if size.length < 2 then '0' :: size else size
    mantissa ++ 'e' :: (if exponent < 0 then '-' else '+') :: size

/-- The text of a positive finite number. -/
def positiveChars (x : Float) : List Char :=
  let (m, e) := parts x
  let n := Neighbourhood.ofParts m e
  let (digits, k) := n.shortestFrom (leadingExponent n.centre) 17
  let (digits, k) := withoutZeros (natChars digits) k
  decimalChars digits k

/-- The shortest decimal text that reads back as the number. -/
def text (x : Float) : String :=
  match value x with
  | .undefined => "nan"
  | .infinite negative => if negative then "-inf" else "inf"
  | .finite q =>
    let digits := if q == 0 then ['0', '.', '0'] else positiveChars x
    String.ofList (if isNegative x then '-' :: digits else digits)

end PatternScore.Binary64
