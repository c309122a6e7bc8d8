import PatternScore.Text.Digit

/-!
# Arguments of the command line

The command takes one input file and some options. A long option may be shortened as long as it is
clear which one is meant, its value may follow it behind an equals sign or as the next word, and two
hyphens alone end the options.
-/

namespace PatternScore.CommandLine

/-- What the command is asked to do. -/
structure Arguments where
  /-- The path of the document. -/
  input : String
  /-- The path of the settings file. -/
  config : String := "scorecycle.yaml"
  /-- The sound of every voice. -/
  instrument : Option String := none
  /-- Where the program is written. -/
  output : Option String := none
  /-- Every step is reported. -/
  verbose : Bool := false
  deriving DecidableEq, Repr

/-! ## Words -/

/-- The options. -/
inductive Flag where
  | help | config | instrument | output | verbose
  deriving DecidableEq, Repr

/-- The long names of the options. -/
def Flag.names : List (String × Flag) := [
  ("--help", .help), ("--config", .config), ("--instrument", .instrument), ("--output", .output),
  ("--verbose", .verbose)]

/-- The option of a full name. -/
def Flag.ofName? (name : String) : Option Flag :=
  if name == "-h" then some .help else names.lookup name

/-- What a word of the command line is. -/
inductive Word where
  /-- An input or the value of an option. -/
  | plain (s : String)
  /-- An option, perhaps with its value. -/
  | flag (f : Flag) (value : Option String)
  /-- An option that does not exist. -/
  | unknown
  /-- The end of the options. -/
  | separator
  deriving DecidableEq, Repr

/-- A negative number is no option. -/
def isNegativeNumber : List Char → Bool
  | '-' :: cs =>
    let whole := cs.takeWhile Text.isDecimalDigit
    match cs.drop whole.length with
    | [] => !whole.isEmpty
    | '.' :: places => !places.isEmpty && places.all Text.isDecimalDigit
    | _ => false
  | _ => false

/-- The part of a word before its first equals sign, and the part behind it. -/
def splitValue (cs : List Char) : List Char × Option (List Char) :=
  match cs.dropWhile (· != '=') with
  | '=' :: value => (cs.takeWhile (· != '='), some value)
  | _ => (cs, none)

/-- The options that a long name may stand for. -/
def candidates (name : List Char) : List Flag :=
  (Flag.names.filter fun (full, _) => name.isPrefixOf full.toList).map (·.2)

/-- What a word that is no full name of an option is. -/
def shortened? (s : String) : Option Word :=
  let cs := s.toList
  let (name, value) := splitValue cs
  let value := value.map String.ofList
  let found :=
    match cs with
    | '-' :: '-' :: _ => (candidates name).map fun f => Word.flag f value
    | '-' :: 'h' :: rest => [.flag .help (some (String.ofList rest))]
    | _ => []
  match found with
  | [word] => some word
  | [] => some (if isNegativeNumber cs || cs.contains ' ' then .plain s else .unknown)
  | _ => none

/-- What a word is, unless it may stand for several options. -/
def classify? (s : String) : Option Word :=
  let (name, value) := splitValue s.toList
  match s.toList, Flag.ofName? s, Flag.ofName? (String.ofList name) with
  | [], _, _ => some (.plain s)
  | ['-'], _, _ => some (.plain s)
  | '-' :: _, some f, _ => some (.flag f none)
  | '-' :: _, none, some f => some (.flag f (value.map String.ofList))
  | '-' :: _, none, none => shortened? s
  | _, _, _ => some (.plain s)

/-- What the words are; behind two hyphens, all are plain. -/
def classifyAll? : List String → Option (List Word)
  | [] => some []
  | s :: rest =>
    if s == "--" then some (.separator :: rest.map .plain)
    else do return (← classify? s) :: (← classifyAll? rest)

/-! ## Reading -/

/-- What the command line asks for. -/
inductive Request where
  /-- Convert a document. -/
  | convert (a : Arguments)
  /-- Tell how the command is used. -/
  | help
  deriving DecidableEq, Repr

/-- How far a command line is read. -/
structure Reading where
  /-- The input, if there is one yet. -/
  input : Option String := none
  /-- The options. -/
  options : Arguments := { input := "" }
  /-- Something is left over. -/
  hasExtras : Bool := false
  deriving Repr

namespace Reading

/-- Takes in a plain word: the first one is the input. -/
def plain (r : Reading) (s : String) : Reading :=
  if r.input.isSome then { r with hasExtras := true } else { r with input := some s }

/-- Sets an option that takes a value. -/
def setValue (r : Reading) (f : Flag) (value : String) : Reading :=
  { r with options :=
      match f with
      | .config => { r.options with config := value }
      | .instrument => { r.options with instrument := some value }
      | .output => { r.options with output := some value }
      | .help | .verbose => r.options }

/-- The request, if there is one input and nothing else. -/
def finish? (r : Reading) : Option Request :=
  match r.input with
  | some input => if r.hasExtras then none else some (.convert { r.options with input })
  | none => none

end Reading

/-- Reads words, unless they break the rules. A request for help counts from where it stands. Two
hyphens alone belong to the input beside them; away from it they are a word too many. -/
def readWords? (r : Reading) : List Word → Option Request
  | [] => r.finish?
  | .plain s :: .separator :: rest => readWords? (r.plain s) rest
  | .plain s :: rest => readWords? (r.plain s) rest
  | .unknown :: rest => readWords? { r with hasExtras := true } rest
  | .separator :: rest => readWords? { r with hasExtras := r.hasExtras || r.input.isSome } rest
  | .flag .help value :: _ =>
    if (value.getD "").toList.all (· == 'h') && value != some "" then some .help else none
  | .flag .verbose none :: rest =>
    readWords? { r with options := { r.options with verbose := true } } rest
  | .flag .verbose (some _) :: _ => none
  | .flag f (some value) :: rest => readWords? (r.setValue f value) rest
  | .flag f none :: .plain value :: rest => readWords? (r.setValue f value) rest
  | .flag _ none :: _ => none

/-- Reads the words of a command line. -/
def parse? (words : List String) : Option Request := do
  readWords? {} (← classifyAll? words)

end PatternScore.CommandLine
