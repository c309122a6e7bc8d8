import PatternScore.Json.Basic

/-!
# Plain scalars of YAML

A scalar without quotes stands for what it looks like: nothing, a truth value, an integer, a
decimal, or else a text. The spellings are those of version 1.1 of the format.
-/

namespace PatternScore.Yaml

/-- The spellings of nothing. -/
def nullWords : List String := ["", "~", "null", "Null", "NULL"]

/-- The spellings of truth. -/
def trueWords : List String := ["yes", "Yes", "YES", "true", "True", "TRUE", "on", "On", "ON"]

/-- The spellings of falsehood. -/
def falseWords : List String := ["no", "No", "NO", "false", "False", "FALSE", "off", "Off", "OFF"]

/-! ## Integers -/

/-- The value of a digit, up to the letter for fifteen. -/
def digitValue (c : Char) : Nat :=
  if '0' ≤ c && c ≤ '9' then c.toNat - 48
  else if 'a' ≤ c && c ≤ 'f' then c.toNat - 87
  else if 'A' ≤ c && c ≤ 'F' then c.toNat - 55
  else 16

/-- A digit to a base. -/
def isDigitOf (base : Nat) (c : Char) : Bool :=
  digitValue c < base

/-- The number that digits to a base write; underscores among them do not count. -/
def digitsTo? (base : Nat) (cs : List Char) : Option Nat :=
  let digits := cs.filter (· != '_')
  if digits.isEmpty || !digits.all (isDigitOf base) then none
  else some (digits.foldl (fun n c => n * base + digitValue c) 0)

/-- A number of minutes or seconds. -/
def sixtieth? (cs : List Char) : Option Nat :=
  match cs with
  | [c] => if isDigitOf 10 c then some (digitValue c) else none
  | [c, d] =>
    if isDigitOf 6 c && isDigitOf 10 d then some (digitValue c * 10 + digitValue d) else none
  | _ => none

/-- The number that parts between colons write, each a sixtieth of the one before. -/
def sixties? (start : Nat) : List (List Char) → Option Nat
  | [] => some start
  | part :: rest => do sixties? (start * 60 + (← sixtieth? part)) rest

/-- An integer without its sign: to base two, sixteen, eight or ten, or in sixtieths. -/
def natural? (cs : List Char) : Option Nat :=
  match cs with
  | ['0'] => some 0
  | '0' :: 'b' :: digits => digitsTo? 2 digits
  | '0' :: 'x' :: digits => digitsTo? 16 digits
  | '0' :: digits =>
    if digits.all fun c => c == '_' || isDigitOf 8 c then digitsTo? 8 ('0' :: digits) else none
  | c :: _ =>
    if !isDigitOf 10 c then none
    else
      match Text.splitChars (· == ':') cs with
      | [] => none
      | first :: parts => do sixties? (← digitsTo? 10 first) parts
  | [] => none

/-! ## Decimals -/

/-- An exponent with its sign, or none. -/
def exponent? : List Char → Option Int
  | [] => some 0
  | e :: sign :: digits =>
    if (e == 'e' || e == 'E') && (sign == '+' || sign == '-') && !digits.isEmpty &&
        digits.all (isDigitOf 10) then
      let n := digits.foldl (fun n c => n * 10 + digitValue c) 0
      some (if sign == '-' then -(n : Int) else n)
    else none
  | _ => none

/-- A decimal without its sign: digits with a point among them. One that begins with the point has a
digit behind it and no sign in front of it. -/
def decimal? (negative isSigned : Bool) (cs : List Char) : Option Numeral :=
  let isPart (c : Char) : Bool := isDigitOf 10 c || c == '_'
  let whole := cs.takeWhile isPart
  match cs.drop whole.length with
  | '.' :: rest =>
    let places := rest.takeWhile isPart
    let begins :=
      match whole.head? with
      | some c => isDigitOf 10 c
      | none => !isSigned && places.head?.any (isDigitOf 10)
    if !begins then none
    else
      (exponent? (rest.drop places.length)).map fun exponent =>
        let places := places.filter (· != '_')
        let digits := (whole ++ places).filter (· != '_')
        .decimal negative (digits.foldl (fun n c => n * 10 + digitValue c) 0)
          (exponent - places.length)
  | _ => none

/-- A decimal in sixtieths without its sign: parts between colons, the last of them with a point and
without an exponent. -/
def sixtiethDecimal? (negative : Bool) (cs : List Char) : Option Numeral :=
  let isPart (c : Char) : Bool := isDigitOf 10 c || c == '_'
  let whole := cs.takeWhile (· != '.')
  match Text.splitChars (· == ':') whole, cs.drop whole.length with
  | first :: next :: parts, '.' :: places => do
    if !first.head?.any (isDigitOf 10) || !places.all isPart then none
    else
      let places := places.filter (· != '_')
      let n ← sixties? (← digitsTo? 10 first) (next :: parts)
      some (.decimal negative (places.foldl (fun n c => n * 10 + digitValue c) n) (-places.length))
  | _, _ => none

/-- The number that a scalar looks like. -/
def numeral? (s : String) : Option Numeral :=
  let (isSigned, negative, cs) :=
    match s.toList with
    | '-' :: cs => (true, true, cs)
    | '+' :: cs => (true, false, cs)
    | cs => (false, false, cs)
  let word := String.ofList cs
  if [".inf", ".Inf", ".INF"].contains word then some (.infinite negative)
  else if [".nan", ".NaN", ".NAN"].contains s then some .undefined
  else
    match natural? cs with
    | some n => some (.integer (if negative then -(n : Int) else n))
    | none => (decimal? negative isSigned cs).or (sixtiethDecimal? negative cs)

/-- What a scalar without quotes stands for. -/
def plainScalar (s : String) : Json :=
  if nullWords.contains s then .null
  else if trueWords.contains s then .bool true
  else if falseWords.contains s then .bool false
  else ((numeral? s).map Json.number).getD (.string s)

end PatternScore.Yaml
