import PatternScore.Json.Basic
import PatternScore.Pattern.Printer

/-!
# Patterns given as JSON

A pattern is an object of one member, which is named for what the pattern is. Any other value is
nothing that can be written as a pattern, and its kind is reported.
-/

namespace PatternScore.Node

mutual

/-- The pattern that a value gives. -/
def ofJson : Json → Except Failure Node
  | .object [("bar", .array [.string array, .number (.integer index)])] => .ok (bar array index)
  | .object [("section", .string name)] => .ok (sectionRef name)
  | .object [("cat", .array items)] => cat <$> ofItems items
  | .object [("stack", .array items)] => stack <$> ofItems items
  | .object [("voiced", .array [pattern, .string sound])] =>
    (voiced · sound) <$> ofJson pattern
  | j => .error (.unrenderable j.kind)

/-- The patterns that some values give. -/
def ofItems : List Json → Except Failure (List Node)
  | [] => .ok []
  | j :: rest => do
    let item ← ofJson j
    return item :: (← ofItems rest)

end

end PatternScore.Node
