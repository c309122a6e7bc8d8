import PatternScore.Number.Scalar

/-!
# JSON values

Parsed tunes come as JSON. Numbers stay numerals, since an integer and a decimal of the same value
are told apart; an object keeps its members in the order in which their names first occur.
-/

namespace PatternScore

/-- A JSON value. -/
inductive Json where
  | null
  | bool (b : Bool)
  | number (n : Numeral)
  | string (s : String)
  | array (items : List Json)
  | object (members : List (String × Json))
  deriving Repr

namespace Json

/-- Members with one more, which replaces an older member of the same name. -/
def setMember : List (String × Json) → String → Json → List (String × Json)
  | [], name, value => [(name, value)]
  | (n, v) :: rest, name, value =>
    if n = name then (n, value) :: rest else (n, v) :: setMember rest name value

/-- The member of a name, if the value is an object that has it. -/
def get? (j : Json) (name : String) : Option Json :=
  match j with
  | object members => members.lookup name
  | _ => none

/-- The member of a name; null if there is none. -/
def get (j : Json) (name : String) : Json :=
  (j.get? name).getD null

/-- The kind of the value, as messages name it. -/
def kind : Json → String
  | null => "NoneType"
  | bool _ => "bool"
  | number (.integer _) => "int"
  | number _ => "float"
  | string _ => "str"
  | array _ => "list"
  | object _ => "dict"

/-- The value counts as present: it is not null, false, zero or empty. A decimal too small for the
format that decimals are read in is zero. -/
def isPresent : Json → Bool
  | null => false
  | bool b => b
  | number (.integer n) => n != 0
  | number (.decimal negative digits exponent) =>
    !Scalar.isZero (Binary64.ofDecimal negative digits exponent)
  | number _ => true
  | string s => !s.isEmpty
  | array items => !items.isEmpty
  | object members => !members.isEmpty

/-- The value if it counts as present. -/
def present? (j : Json) : Option Json :=
  if j.isPresent then some j else none

end Json

end PatternScore
