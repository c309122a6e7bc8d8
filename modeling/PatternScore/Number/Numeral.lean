import PatternScore.Failure
import PatternScore.Text.Blank

/-!
# Numerals

A `Numeral` is a number as it is written, before it becomes a value of some number type: an
integer, a decimal fraction with a power of ten, or one of the words for the values that are no
numbers. `readInteger` and `readDecimal?` read the numerals of texts. Both take white space around
the numeral, a sign, decimal digits of any script, and single underscores between digits. An integer
of very many digits is refused, since it would take too long to read it.
-/

namespace PatternScore

/-- A number as written. -/
inductive Numeral where
  /-- An integer. -/
  | integer (n : Int)
  /-- The number `digits * 10 ^ exponent`, or its opposite. -/
  | decimal (negative : Bool) (digits : Nat) (exponent : Int)
  /-- Infinity with a sign. -/
  | infinite (negative : Bool)
  /-- The word for a value that is not a number. -/
  | undefined
  deriving DecidableEq, Repr

namespace Numeral

open Text

/-! ## Integers -/

/-- The text without its sign, and whether the sign was a minus. -/
def unsigned : List Char → Bool × List Char
  | '-' :: cs => (true, cs)
  | '+' :: cs => (false, cs)
  | cs => (false, cs)

/-- The most digits that an integer may have: the standard value of a guard that whoever runs the
program can move. -/
def mostDigits : Nat := 4300

/-- The number that digits write, if there are not too many of them. -/
def ofDigits (digits : List Char) : Except Failure Nat :=
  if mostDigits < digits.length then .error (.tooManyDigits digits.length)
  else .ok (digitsValue 0 digits)

/-- The digits of a text, which single underscores may group. -/
def digits? (cs : List Char) : Option (List Char) :=
  let groups := splitChars (· == '_') cs
  if groups.all fun group => !group.isEmpty && group.all isDecimalDigit then some groups.flatten
  else none

/-- The integer that a text stands for. A run of too many digits at its start is refused as such,
whatever follows it. -/
def readInteger (s : String) : Except Failure Int := do
  let (negative, cs) := unsigned (trimChars s.toList)
  let run := cs.takeWhile fun c => c == '_' || isDecimalDigit c
  match digits? run with
  | some digits =>
    let n ← ofDigits digits
    if run.length < cs.length then .error (.notAnInteger s)
    else return if negative then -(n : Int) else n
  | none => .error (.notAnInteger s)

/-! ## Decimal fractions -/

/-- Leaves out underscores; each must stand between two digits. -/
def ungrouped? : List Char → Option (List Char)
  | [] => some []
  | '_' :: _ => none
  | c :: '_' :: d :: cs =>
    if isDecimalDigit c && isDecimalDigit d then (ungrouped? (d :: cs)).map (c :: ·) else none
  | c :: cs => (ungrouped? cs).map (c :: ·)

/-- The exponent part of a decimal: nothing, or `e` and an integer. -/
def readExponent? : List Char → Option Int
  | [] => some 0
  | e :: cs =>
    if e == 'e' || e == 'E' then
      let (negative, digits) := unsigned cs
      if !digits.isEmpty && digits.all isDecimalDigit then
        let n := digitsValue 0 digits
        some (if negative then -(n : Int) else n)
      else none
    else none

/-- A decimal without sign: digits, a point and digits with at least one digit in all, and an
exponent. -/
def readUnsigned? (negative : Bool) (cs : List Char) : Option Numeral :=
  let whole := cs.takeWhile isDecimalDigit
  let (fraction, rest) :=
    match cs.dropWhile isDecimalDigit with
    | '.' :: more => (more.takeWhile isDecimalDigit, more.dropWhile isDecimalDigit)
    | more => ([], more)
  if whole.isEmpty && fraction.isEmpty then none
  else
    (readExponent? rest).map fun exponent =>
      .decimal negative (digitsValue 0 (whole ++ fraction)) (exponent - fraction.length)

/-- The number that a text stands for, which may be infinity or no number at all. -/
def readDecimal? (s : String) : Option Numeral :=
  let (negative, body) := unsigned (trimChars s.toList)
  let word := String.ofList (body.map Char.toLower)
  if word == "inf" || word == "infinity" then some (.infinite negative)
  else if word == "nan" then some .undefined
  else (ungrouped? body).bind (readUnsigned? negative)

end Numeral

end PatternScore
