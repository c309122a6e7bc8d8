import PatternScore.Text.CaseTable
import PatternScore.Text.WordTable

/-!
# Upper and lower case

Each character is mapped by itself: in ASCII by distance, elsewhere by the tables of
`CaseTable`. A few characters have an upper case of two or three characters. One letter has two
lower cases: a capital sigma that ends a word becomes the final sigma, and any other the usual one.
-/

namespace PatternScore.Text

/-- The character that is `shift` places away from `c`. -/
def shifted (c : Char) (shift : Int) : Char :=
  Char.ofNat (c.toNat + shift).toNat

/-- What the tables make of a character outside ASCII. -/
def mapCase (runs : Array CaseRun) (expansions : List (Nat × List Nat)) (c : Char) : List Char :=
  match expansions.lookup c.toNat with
  | some codes => codes.map Char.ofNat
  | none =>
    match runs.find? (·.covers c.toNat) with
    | some run => [shifted c run.shift]
    | none => [c]

/-- The upper case of a character. -/
def upperChar (c : Char) : List Char :=
  if c.toNat < 128 then [c.toUpper] else mapCase upperRuns upperExpansions c

/-- The lower case of a character. -/
def lowerChar (c : Char) : List Char :=
  if c.toNat < 128 then [c.toLower] else mapCase lowerRuns lowerExpansions c

/-- The upper case of a text. -/
def upper (s : String) : String :=
  String.ofList (s.toList.flatMap upperChar)

/-- The letters of a word go on here: the first character that is not passed over has a case. -/
def continuesWord (cs : List Char) : Bool :=
  (cs.find? fun c => !isTransparent c).any isCased

/-- The lower case of the rest of a text; `inWord` tells whether a letter of a word stands before
it. -/
def lowerFrom (inWord : Bool) : List Char → List Char
  | [] => []
  | c :: cs =>
    (if c == 'Σ' && inWord && !continuesWord cs then ['ς'] else lowerChar c)
      ++ lowerFrom (if isTransparent c then inWord else isCased c) cs

/-- The lower case of a text. -/
def lower (s : String) : String :=
  String.ofList (lowerFrom false s.toList)

end PatternScore.Text
