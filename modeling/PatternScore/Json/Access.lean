import PatternScore.Failure
import PatternScore.Json.Basic

/-!
# Parts of JSON values

What reads a JSON value asks it for members, for items, or whether it can be a name. A value of
another kind than the one that was expected refuses, each question in its own words. What has no
items at all becomes a list whose only item could not be read, since it is a failure for the same
reader at the same place.
-/

namespace PatternScore.Json

/-- The member of a name, null if there is none; only an object has members. -/
def part (j : Json) (name : String) : Except Failure Json :=
  match j with
  | object _ => .ok (j.get name)
  | _ => .error (.notAnObject j.kind "get")

/-- The member of a name that has to be there. -/
def member (j : Json) (name : String) : Except Failure Json :=
  match j with
  | object members =>
    match members.lookup name with
    | some value => .ok value
    | none => .error (.unknownName name)
  | string _ => .error .textByName
  | array _ => .error .listByName
  | _ => .error (.noMembers j.kind)

/-- What one comes past on the way through a value: the items of a list, the characters of a text,
the names of an object. -/
def items (j : Json) : Except Failure (List Json) :=
  match j with
  | array items => .ok items
  | string s => .ok (s.toList.map fun c => string (String.singleton c))
  | object members => .ok (members.map fun (name, _) => string name)
  | _ => .error (.notAList j.kind)

/-- The items of a value, each of them read; what does not count as present has none. -/
def listing {α : Type} (read : Json → Except Failure α) (j : Json) : Listing α :=
  if j.isPresent then
    match j.items with
    | .ok items => items.map read
    | .error f => [.error f]
  else []

/-- The value if it counts as present, else an object without members. -/
def orEmpty (j : Json) : Json :=
  j.present?.getD (object [])

/-- The value, if a table can be searched for it: lists and objects cannot be looked up. -/
def asEntry (j : Json) : Except Failure Json :=
  match j with
  | array _ | object _ => .error (.noEntry j.kind)
  | _ => .ok j

end PatternScore.Json
