import PatternScore.Notation.Printer

/-!
# Reading mini-notation

A bar literal is cut at white space into steps. A step is a tilde, an integer, or integers in
brackets with commas between them; behind an at sign it may have a length, which is one otherwise.
Decimal digits of any script are read. A step that takes no time is refused.
-/

namespace PatternScore.Bar

open Text

/-- The natural number that digits stand for. There may be any number of them: in a bar literal the
guard against very long numerals (`Numeral.mostDigits`) is left out. -/
def readNat? (cs : List Char) : Option Nat :=
  if !cs.isEmpty && cs.all isDecimalDigit then some (digitsValue 0 cs) else none

/-- The integer that digits stand for, after an optional minus sign. -/
def readPitch? : List Char → Option Int
  | '-' :: cs => (readNat? cs).map fun n => -(n : Int)
  | cs => (readNat? cs).map fun n => (n : Int)

/-- What sounds in a step: some pitches, or nothing in a rest. -/
def readSymbol? (cs : List Char) : Option (Option (List Int)) :=
  match cs with
  | ['~'] => some none
  | '[' :: inner =>
    match inner.reverse with
    | ']' :: body => ((splitChars (· == ',') body.reverse).mapM readPitch?).map some
    | _ => none
  | _ => (readPitch? cs).map fun pitch => some [pitch]

/-- The symbol and the length of a step. -/
def readStep? (cs : List Char) : Option (Option (List Int) × Nat) :=
  match splitChars (· == '@') cs with
  | [symbol] => (readSymbol? symbol).map (·, 1)
  | [symbol, weight] => do return (← readSymbol? symbol, ← readNat? weight)
  | _ => none

/-- The token of a step. -/
def readToken (step : String) : Except Failure Token :=
  match readStep? step.toList with
  | none => .error (.unreadableStep step)
  | some (_, 0) => .error (.weightNotPositive step)
  | some (some pitches, weight) => .ok (.note pitches weight)
  | some (none, weight) => .ok (.rest weight)

/-- The bar that a literal writes. -/
def read (s : String) : Except Failure Bar :=
  (words s).mapM readToken

/-- The bar's written form reads back as the bar. -/
def readsBack (bar : Bar) : Except Failure Bool := do
  let text ← bar.write
  return match read text with
    | .ok tokens => tokens == bar
    | .error _ => false

end PatternScore.Bar
