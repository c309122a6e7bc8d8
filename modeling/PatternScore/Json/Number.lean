import PatternScore.Json.Basic

/-!
# Numbers in JSON

Where a number is expected, a text that writes one is as good, and a truth value counts as one or
zero. Anything else is refused by its kind.
-/

namespace PatternScore.Json

/-- A truth value as a number. -/
def ofBool (b : Bool) : Int :=
  if b then 1 else 0

/-- The integer that a value stands for; a fraction is cut off. -/
def toInteger : Json → Except Failure Int
  | number (.integer n) => .ok n
  | number n => do Scalar.rounded truncate (← (Scalar.ofNumeral n : Except Failure Float))
  | string s => Numeral.readInteger s
  | bool b => .ok (ofBool b)
  | j => .error (.notNumeric j.kind)

/-- The measured quantity that a value stands for. -/
def toScalar {τ : Type} [Scalar τ] : Json → Except Failure τ
  | number n => Scalar.ofNumeral n
  | string s =>
    match Numeral.readDecimal? s with
    | some n => Scalar.ofNumeral n
    | none => .error (.notADecimal s)
  | bool b => Scalar.ofInt (ofBool b)
  | j => .error (.notDecimal j.kind)

end PatternScore.Json
