/-!
# White space: trimming, words and lines

Which characters count as white space, which of them end a line, and the three ways in which texts
are cut at them. All cuts are made on lists of characters; `String` versions wrap them.
-/

namespace PatternScore.Text

/-- White space: the separators of Unicode and the ASCII controls that lay out text. -/
def isBlank (c : Char) : Bool :=
  let n := c.toNat
  (9 ≤ n && n ≤ 13) || (28 ≤ n && n ≤ 32) || n == 0x85 || n == 0xA0 || n == 0x1680 ||
    (0x2000 ≤ n && n ≤ 0x200A) || n == 0x2028 || n == 0x2029 || n == 0x202F || n == 0x205F ||
    n == 0x3000

/-- Characters that end a line. -/
def isLineEnd (c : Char) : Bool :=
  let n := c.toNat
  (10 ≤ n && n ≤ 13) || (28 ≤ n && n ≤ 30) || n == 0x85 || n == 0x2028 || n == 0x2029

/-! ## Trimming -/

/-- Leaves out the white space at the end. -/
def trimRight (cs : List Char) : List Char :=
  (cs.reverse.dropWhile isBlank).reverse

/-- Leaves out the white space at both ends. -/
def trimChars (cs : List Char) : List Char :=
  trimRight (cs.dropWhile isBlank)

/-- Leaves out the white space at both ends of a text. -/
def trim (s : String) : String :=
  String.ofList (trimChars s.toList)

/-! ## Cutting -/

/-- The pieces of a text between the characters that `sep` accepts; one more piece than there are
such characters. -/
def splitChars (sep : Char → Bool) : List Char → List (List Char)
  | [] => [[]]
  | c :: cs =>
    if sep c then [] :: splitChars sep cs
    else
      match splitChars sep cs with
      | [] => [[c]]
      | piece :: rest => (c :: piece) :: rest

/-- The pieces of a text between occurrences of one character. -/
def splitOn (sep : Char) (s : String) : List String :=
  (splitChars (· == sep) s.toList).map String.ofList

/-- The words of a text: its longest runs without white space. -/
def words (s : String) : List String :=
  ((splitChars isBlank s.toList).filter (!·.isEmpty)).map String.ofList

/-- The lines of a text. A carriage return followed by a line feed ends one line, and the end of
the text ends a line only if something stands before it. -/
def lineChars : List Char → List (List Char)
  | [] => []
  | [c] => if isLineEnd c then [[]] else [[c]]
  | c :: d :: cs =>
    if c == '\r' && d == '\n' then [] :: lineChars cs
    else if isLineEnd c then [] :: lineChars (d :: cs)
    else
      match lineChars (d :: cs) with
      | [] => [[c]]
      | line :: rest => (c :: line) :: rest

/-- The lines of a text, without the characters that end them. -/
def lines (s : String) : List String :=
  (lineChars s.toList).map String.ofList

/-! ## Joining -/

/-- The pieces in order, with `sep` between neighbours. -/
def joinWith (sep : String) : List String → String
  | [] => ""
  | [piece] => piece
  | piece :: next :: rest => piece ++ sep ++ joinWith sep (next :: rest)

end PatternScore.Text
