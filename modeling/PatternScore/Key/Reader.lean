import PatternScore.Key.Basic
import PatternScore.Text.Blank
import PatternScore.Text.Case

/-!
# Keys written as text

A key text is a note letter in either case, an accidental, and a mode word. A word for a minor mode
makes the key minor; any other word, and none, leaves it major. An empty text is C major.
-/

namespace PatternScore.Key

open Text

/-- The words that name a minor mode. -/
def minorWords : List String := ["m", "min", "minor", "aeo", "aeolian"]

/-- The mode that the text behind the tonic names: its first word, up to a space, decides. -/
def modeOfText (s : String) : Mode :=
  let word := (splitOn ' ' (lower (trim s))).headD ""
  if minorWords.contains word then .minor else .major

/-- The rest of a line: no line feed in it, save one that ends the text. -/
def restOfLine? (cs : List Char) : Option (List Char) :=
  let line := cs.takeWhile (· != '\n')
  match cs.dropWhile (· != '\n') with
  | [] | ['\n'] => some line
  | _ => none

/-- The tonic letter of a key text, in either case. -/
def letterOfText? (c : Char) : Option Letter :=
  if c.toNat < 128 then Letter.ofChar? c.toUpper else none

/-- The key that a text writes. -/
def read (s : String) : Except Failure Key := do
  let failure : Failure := .unreadableKey s
  match s.toList.dropWhile isBlank with
  | [] => return {}
  | c :: cs =>
    let some letter := letterOfText? c | .error failure
    let (accidental, cs) :=
      match cs with
      | [] => (Accidental.natural, [])
      | sign :: rest =>
        match Accidental.ofChar? sign with
        | some accidental => (accidental, rest)
        | none => (.natural, cs)
    let some mode := restOfLine? (cs.dropWhile isBlank) | .error failure
    return ⟨⟨letter, accidental⟩, modeOfText (String.ofList mode)⟩

end PatternScore.Key
