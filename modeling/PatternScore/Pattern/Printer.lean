import PatternScore.Pattern.Basic
import PatternScore.Notation.Printer

/-!
# The text of a program

A program's text begins with comment lines, the lines of the title first, and states the tempo. It
declares a bar array for each voice and then the section arrays, and ends with the pattern that is
played, its scale and its sound. Every text ends with a line feed.
-/

namespace PatternScore

open Text

/-- A text between double quotes; a backslash stands before quotes and backslashes. -/
def literalChars : List Char → List Char
  | [] => []
  | c :: cs =>
    if c == '"' || c == '\\' then '\\' :: c :: literalChars cs else c :: literalChars cs

/-- A text as a string literal of a program. -/
def literal (s : String) : String :=
  String.ofList ('"' :: literalChars s.toList ++ ['"'])

namespace Node

mutual

/-- The text of a pattern. -/
def text : Node → String
  | bar array index => array ++ "[" ++ int index ++ "]"
  | sectionRef name => "cat(..." ++ name ++ ")"
  | cat items => "cat(" ++ joinWith ", " (texts items) ++ ")"
  | stack items => "stack(" ++ joinWith ", " (texts items) ++ ")"
  | voiced pattern sound => text pattern ++ ".s(" ++ literal sound ++ ")"

/-- The texts of some patterns. -/
def texts : List Node → List String
  | [] => []
  | item :: rest => text item :: texts rest

end

end Node

/-- The text of the statement that plays a program; an empty sound is not named. -/
def Program.text (p : Program) : String :=
  let sound :=
    match p.sound with
    | some sound => if sound.isEmpty then "" else ".s(" ++ literal sound ++ ")"
    | none => ""
  p.body.text ++ ".scale(" ++ literal p.scale ++ ")" ++ sound ++ ";"

/-- The text of a bar in a bar array. -/
def UniqueBar.text (u : UniqueBar) : String :=
  "n(" ++ literal u.tokens.text ++ ")"

/-- A declaration of a list under a name. -/
def declaration (name : String) (items : List String) : String :=
  "const " ++ name ++ " = [" ++ joinWith ", " items ++ "];"

/-- The declaration of a bar array. -/
def BarArray.text (a : BarArray) : String :=
  declaration a.name (a.bars.map UniqueBar.text)

/-- The declaration of a section array. -/
def SectionArray.text (a : SectionArray) : String :=
  declaration a.name (a.refs.map fun r => r.node.text)

/-- A comment line. -/
def commentLine (s : String) : String :=
  "// " ++ s

/-- The text that stands for a program when nothing can be converted. -/
def errorText (message : String) : String :=
  commentLine ("Error: " ++ message) ++ "\n"

namespace Composition

/-- The comment lines of the title: its lines that are not blank. -/
def titleLines (title : String) : List String :=
  ((lines title).map trim).filter (!·.isEmpty)

/-- The lines of a program. -/
def lines (c : Composition) : List String :=
  (titleLines c.title ++ c.comments).map commentLine ++
    ["setcpm(" ++ int c.cyclesPerMinute ++ ")", ""] ++
    c.arrays.map BarArray.text ++
    (if c.sections.isEmpty then [] else "" :: c.sections.map SectionArray.text) ++
    ["", c.program.text]

/-- The text of a program. -/
def text (c : Composition) : String :=
  joinWith "\n" c.lines ++ "\n"

/-- The text of a program, unless a bar holds a note of no pitch. -/
def write (c : Composition) : Except Failure String :=
  if c.arrays.any (·.bars.any (·.tokens.any (·.isMute))) then .error .noPitch else .ok c.text

end Composition

end PatternScore
