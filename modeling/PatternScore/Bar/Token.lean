import PatternScore.Text.Blank
import PatternScore.Text.Digit

/-!
# Tokens

The content of a bar is a list of tokens, each a note, a chord or a rest that lasts a whole number
of units. Two bars with equal tokens are the same bar.
-/

namespace PatternScore

/-- A sound or a silence that lasts a number of units. -/
inductive Token where
  /-- The pitches that sound together. -/
  | note (pitches : List Int) (units : Int)
  /-- Silence. -/
  | rest (units : Int)
  deriving DecidableEq, Repr

namespace Token

/-- How long the token lasts. -/
def units : Token → Int
  | note _ units => units
  | rest units => units

/-- The token is silence. -/
def isRest : Token → Bool
  | note .. => false
  | rest _ => true

/-- The token is a note of no pitch, which has no written form. -/
def isMute : Token → Bool
  | note [] _ => true
  | _ => false

/-- The text of a token within the key of its bar. -/
def key : Token → String
  | note pitches units =>
    Text.joinWith "," (pitches.map Text.int) ++ ":" ++ Text.int units
  | rest units => "~:" ++ Text.int units

end Token

/-- The content of a bar. -/
abbrev Bar := List Token

namespace Bar

/-- How long the bar lasts. -/
def units (bar : Bar) : Int :=
  bar.foldl (fun length tok => length + tok.units) 0

/-- The text by which bars are told apart. Every bar has one, however long the numbers in it are. -/
def key (bar : Bar) : String :=
  Text.joinWith " " (bar.map Token.key)

/-- The bar that only consists of one rest. -/
def empty : Bar := [.rest 1]

end Bar

end PatternScore
