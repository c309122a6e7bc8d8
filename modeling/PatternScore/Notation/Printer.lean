import PatternScore.Bar.Token
import PatternScore.Failure

/-!
# Bars in mini-notation

A bar is written as its tokens with spaces between them: a pitch, a chord in brackets or a tilde
for silence, each with its length behind an at sign. A note of no pitch has no written form.
-/

namespace PatternScore

namespace Token

/-- The written form of a token. -/
def text : Token → String
  | note [pitch] units => Text.int pitch ++ "@" ++ Text.int units
  | note pitches units =>
    "[" ++ Text.joinWith "," (pitches.map Text.int) ++ "]@" ++ Text.int units
  | rest units => "~@" ++ Text.int units

end Token

namespace Bar

/-- The written form of a bar. -/
def text (bar : Bar) : String :=
  Text.joinWith " " (bar.map Token.text)

/-- The written form of a bar, unless it holds a note of no pitch. -/
def write (bar : Bar) : Except Failure String :=
  if bar.any (·.isMute) then .error .noPitch else .ok bar.text

end Bar

end PatternScore
