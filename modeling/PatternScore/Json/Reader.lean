import PatternScore.Json.Basic

/-!
# Reading JSON

The reader goes through the characters once. Every function takes what is left of the text and
returns a value with what is left behind it. Besides the values of the standard, the words for
infinity and for a value that is not a number are read.

The first argument of the functions that call themselves bounds what they may still do. Nested
values and items take at most two units of it for every character that is read, and the characters
of a string one each, so that twice the length of the text is always enough. How deep arrays and
objects may stand within each other is bounded as well.
-/

namespace PatternScore.Json

open Text

/-- The characters without the blanks at their start. -/
def skipBlanks (cs : List Char) : List Char :=
  cs.dropWhile fun c => c == ' ' || c == '\t' || c == '\n' || c == '\r'

/-- The characters behind a word, if they begin with it. -/
def after? (word cs : List Char) : Option (List Char) :=
  if word.isPrefixOf cs then some (cs.drop word.length) else none

/-! ## Strings -/

/-- The value of a hexadecimal digit. -/
def hexValue? (c : Char) : Option Nat :=
  if '0' ≤ c && c ≤ '9' then some (c.toNat - 48)
  else if 'a' ≤ c && c ≤ 'f' then some (c.toNat - 87)
  else if 'A' ≤ c && c ≤ 'F' then some (c.toNat - 55)
  else none

/-- The code unit that four hexadecimal digits give. -/
def codeUnit? : List Char → Option (Nat × List Char)
  | a :: b :: c :: d :: cs => do
    let high := (← hexValue? a) * 16 + (← hexValue? b)
    let low := (← hexValue? c) * 16 + (← hexValue? d)
    return (high * 256 + low, cs)
  | _ => none

/-- The character that a `u` escape gives. A pair of surrogates gives one character; a lone
surrogate has no character and becomes the replacement character. -/
def unicodeEscape? (cs : List Char) : Option (Char × List Char) := do
  let (high, rest) ← codeUnit? cs
  if high < 0xD800 || 0xE000 ≤ high then return (Char.ofNat high, rest)
  match rest with
  | '\\' :: 'u' :: more =>
    let (low, behind) ← codeUnit? more
    if high < 0xDC00 && 0xDC00 ≤ low && low < 0xE000 then
      return (Char.ofNat (0x10000 + (high - 0xD800) * 0x400 + (low - 0xDC00)), behind)
    else return (Char.ofNat 0xFFFD, rest)
  | _ => return (Char.ofNat 0xFFFD, rest)

/-- The character that an escape of one letter gives. -/
def shortEscape? : Char → Option Char
  | '"' => some '"'
  | '\\' => some '\\'
  | '/' => some '/'
  | 'b' => some (Char.ofNat 8)
  | 'f' => some (Char.ofNat 12)
  | 'n' => some '\n'
  | 'r' => some '\r'
  | 't' => some '\t'
  | _ => none

/-- The characters of a string up to its closing quote; those that are read are given last first. -/
def stringChars? : Nat → List Char → List Char → Option (String × List Char)
  | 0, _, _ => none
  | _ + 1, _, [] => none
  | _ + 1, done, '"' :: cs => some (String.ofList done.reverse, cs)
  | bound + 1, done, '\\' :: 'u' :: cs => do
    let (c, rest) ← unicodeEscape? cs
    stringChars? bound (c :: done) rest
  | bound + 1, done, '\\' :: e :: cs => do stringChars? bound ((← shortEscape? e) :: done) cs
  | bound + 1, done, c :: cs =>
    if c.toNat < 32 || c == '\\' then none else stringChars? bound (c :: done) cs

/-- A string whose opening quote is read. -/
def string? (bound : Nat) (cs : List Char) : Option (String × List Char) :=
  stringChars? bound [] cs

/-! ## Numbers -/

/-- An ASCII digit. -/
def isAsciiDigit (c : Char) : Bool :=
  '0' ≤ c && c ≤ '9'

/-- The digits behind a point, if a point and a digit follow. -/
def fraction? : List Char → Option (List Char × List Char)
  | '.' :: cs =>
    let digits := cs.takeWhile isAsciiDigit
    if digits.isEmpty then none else some (digits, cs.dropWhile isAsciiDigit)
  | _ => none

/-- The power of ten, if an exponent follows. -/
def exponent? : List Char → Option (Int × List Char)
  | e :: cs =>
    if e == 'e' || e == 'E' then
      let (negative, cs) := Numeral.unsigned cs
      let digits := cs.takeWhile isAsciiDigit
      let n := digitsValue 0 digits
      if digits.isEmpty then none
      else some (if negative then -(n : Int) else n, cs.dropWhile isAsciiDigit)
    else none
  | [] => none

/-- A number without its sign; an integer may not have too many digits. -/
def unsigned? (negative : Bool) (cs : List Char) : Option (Numeral × List Char) :=
  let whole :=
    match cs with
    | '0' :: _ => ['0']
    | _ => cs.takeWhile isAsciiDigit
  let cs := cs.drop whole.length
  if whole.isEmpty then none
  else
    let point := fraction? cs
    let (fraction, cs) := point.getD ([], cs)
    let power := exponent? cs
    let (exponent, cs) := power.getD (0, cs)
    let digits := digitsValue 0 (whole ++ fraction)
    if point.isNone && power.isNone then
      if Numeral.mostDigits < whole.length then none
      else some (.integer (if negative then -(digits : Int) else digits), cs)
    else some (.decimal negative digits (exponent - fraction.length), cs)

/-- A number. -/
def number? : List Char → Option (Numeral × List Char)
  | '-' :: cs =>
    match after? ['I', 'n', 'f', 'i', 'n', 'i', 't', 'y'] cs with
    | some rest => some (.infinite true, rest)
    | none => unsigned? true cs
  | cs => unsigned? false cs

/-! ## Values -/

/-- What arrays and objects have in common: they hold other values. -/
inductive Nest where
  /-- An array. -/
  | array
  /-- An object. -/
  | object
  deriving DecidableEq, Repr

/-- The word for a value that holds others. -/
def Nest.word : Nest → String
  | .array => "array"
  | .object => "object"

/-- Why a text gives no value. -/
inductive ReadFailure where
  /-- The text is not well-formed. -/
  | malformed
  /-- Values stand too deep within each other; the last of them is of the given kind. -/
  | tooDeep (nest : Nest)
  deriving DecidableEq, Repr

/-- What is read, or else the text is malformed. -/
def orMalformed {α : Type} (x : Option α) : Except ReadFailure α :=
  match x with
  | some x => .ok x
  | none => .error .malformed

/-- How many arrays and objects may stand within each other. -/
def mostNested : Nat := 988

/-- The depth within an array or object at a depth. -/
def within (nest : Nest) : Nat → Except ReadFailure Nat
  | 0 => .error (.tooDeep nest)
  | depth + 1 => .ok depth

/-- A value that is neither an array nor an object nor a string. -/
def scalar? (cs : List Char) : Option (Json × List Char) :=
  match cs with
  | 'n' :: _ => (after? ['n', 'u', 'l', 'l'] cs).map (null, ·)
  | 't' :: _ => (after? ['t', 'r', 'u', 'e'] cs).map (bool true, ·)
  | 'f' :: _ => (after? ['f', 'a', 'l', 's', 'e'] cs).map (bool false, ·)
  | 'N' :: _ => (after? ['N', 'a', 'N'] cs).map (number .undefined, ·)
  | 'I' :: _ =>
    (after? ['I', 'n', 'f', 'i', 'n', 'i', 't', 'y'] cs).map (number (.infinite false), ·)
  | _ => (number? cs).map fun (n, rest) => (number n, rest)

mutual

/-- A value; the second argument says how deep values may still stand within it. -/
def readValue : Nat → Nat → List Char → Except ReadFailure (Json × List Char)
  | 0, _, _ => .error .malformed
  | bound + 1, depth, cs =>
    match cs with
    | '"' :: rest => do
      let (s, rest) ← orMalformed (string? bound rest)
      return (string s, rest)
    | '[' :: rest => do
      let depth ← within .array depth
      match skipBlanks rest with
      | ']' :: rest => return (array [], rest)
      | rest => readItems bound depth [] rest
    | '{' :: rest => do
      let depth ← within .object depth
      match skipBlanks rest with
      | '}' :: rest => return (object [], rest)
      | rest => readMembers bound depth [] rest
    | _ => orMalformed (scalar? cs)

/-- The items of an array up to its closing bracket; those that are read are given last first. -/
def readItems : Nat → Nat → List Json → List Char → Except ReadFailure (Json × List Char)
  | 0, _, _, _ => .error .malformed
  | bound + 1, depth, done, cs => do
    let (item, rest) ← readValue bound depth (skipBlanks cs)
    match skipBlanks rest with
    | ',' :: rest => readItems bound depth (item :: done) rest
    | ']' :: rest => return (array (item :: done).reverse, rest)
    | _ => .error .malformed

/-- The members of an object up to its closing brace. -/
def readMembers :
    Nat → Nat → List (String × Json) → List Char → Except ReadFailure (Json × List Char)
  | 0, _, _, _ => .error .malformed
  | bound + 1, depth, done, cs =>
    match skipBlanks cs with
    | '"' :: rest => do
      let (name, rest) ← orMalformed (string? bound rest)
      match skipBlanks rest with
      | ':' :: rest =>
        let (item, rest) ← readValue bound depth (skipBlanks rest)
        let done := setMember done name item
        match skipBlanks rest with
        | ',' :: rest => readMembers bound depth done rest
        | '}' :: rest => return (object done, rest)
        | _ => .error .malformed
      | _ => .error .malformed
    | _ => .error .malformed

end

/-- The value that a text writes, with nothing but blanks around it. -/
def read (s : String) : Except ReadFailure Json := do
  let cs := skipBlanks s.toList
  let (j, rest) ← readValue (2 * cs.length + 2) mostNested cs
  if (skipBlanks rest).isEmpty then return j else .error .malformed

end PatternScore.Json
