import PatternScore.Json.Basic

/-!
# JSON values in messages and titles

The text of a value where a text is expected but another value stands. A string stands for itself;
within lists and objects, and where a message shows a value, strings are quoted.
-/

namespace PatternScore

/-- The text of a numeral. -/
def Numeral.text : Numeral → String
  | .integer n => Text.int n
  | .decimal negative digits exponent => Binary64.text (Binary64.ofDecimal negative digits exponent)
  | .infinite negative => if negative then "-inf" else "inf"
  | .undefined => "nan"

namespace Json

mutual

/-- A value as messages show it. -/
def shown : Json → String
  | null => "None"
  | bool b => if b then "True" else "False"
  | number n => n.text
  | string s => Text.quoted s
  | array items => "[" ++ Text.joinWith ", " (shownItems items) ++ "]"
  | object members => "\x7b" ++ Text.joinWith ", " (shownMembers members) ++ "\x7d"

/-- The items of a list as messages show them. -/
def shownItems : List Json → List String
  | [] => []
  | item :: rest => shown item :: shownItems rest

/-- The members of an object as messages show them. -/
def shownMembers : List (String × Json) → List String
  | [] => []
  | (name, value) :: rest => (Text.quoted name ++ ": " ++ shown value) :: shownMembers rest

end

/-- The text that a value stands for. -/
def text : Json → String
  | string s => s
  | j => j.shown

end Json

end PatternScore
