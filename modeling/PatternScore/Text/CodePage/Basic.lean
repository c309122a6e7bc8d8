import PatternScore.Text.Blank

/-!
# Code pages

A code page gives each byte a character: those below 128 are ASCII, and a row of characters tells
the others. Encodings are known by many names. Case does not count in them, and neither does what
stands between their letters, digits and points.
-/

namespace PatternScore.Text

/-! ## Names of encodings -/

/-- A name in one way of writing: in lower case, with an underscore between two runs of letters,
digits and points. -/
def encodingName (name : String) : String :=
  let letters := name.toList.map fun c =>
    if c.isAlphanum || c == '.' then c.toLower else ' '
  joinWith "_" (words (String.ofList letters))

/-- The names of an encoding. -/
structure EncodingNames where
  /-- Names proper. -/
  names : List String
  /-- Other names; a point may stand for an underscore in them. -/
  aliases : List String := []
  deriving Repr

/-- The name is one of those. -/
def EncodingNames.has (e : EncodingNames) (name : String) : Bool :=
  let name := encodingName name
  e.names.contains name || e.aliases.contains name ||
    (name.toList.contains '.' && e.aliases.contains (name.map fun c => if c == '.' then '_' else c))

/-! ## Pages -/

/-- A code page. -/
structure CodePage extends EncodingNames where
  /-- The characters of the bytes from 128 up. U+FFFD stands where there is none. -/
  upper : String := ""
  /-- An ASCII character that begins an escape and is no character of its own. -/
  escape : Option Char := none
  deriving Repr

namespace CodePage

/-- The character of a byte, given the characters from 128 up. -/
def char? (p : CodePage) (upper : Array Char) (b : UInt8) : Option Char :=
  if b < 128 then
    let c := Char.ofNat b.toNat
    if p.escape == some c then none else some c
  else upper[b.toNat - 128]?.filter (·.toNat != 0xFFFD)

/-- The characters of some bytes, if all of them have one; those that are done are given last
first. -/
def decodeFrom? (p : CodePage) (upper : Array Char) (done : List Char) :
    List UInt8 → Option (List Char)
  | [] => some done.reverse
  | b :: rest =>
    match p.char? upper b with
    | some c => p.decodeFrom? upper (c :: done) rest
    | none => none

/-- The characters of some bytes, if all of them have one. -/
def decode? (p : CodePage) (bytes : List UInt8) : Option (List Char) :=
  p.decodeFrom? p.upper.toList.toArray [] bytes

/-- The page of ASCII alone. Encodings that add characters by escapes or by runs of bytes from 128
up are read as far as they agree with it. -/
def ascii : CodePage where
  names := ["ascii", "iso2022_jp", "iso2022_jp_1", "iso2022_jp_2", "iso2022_jp_2004",
            "iso2022_jp_3", "iso2022_jp_ext", "utf_8", "utf_8_sig"]
  aliases := ["ansi_x3.4_1968", "ansi_x3.4_1986", "ansi_x3_4_1968", "cp367", "cp65001",
              "csascii", "csiso2022jp", "ibm367", "iso2022jp", "iso2022jp_1", "iso2022jp_2",
              "iso2022jp_2004", "iso2022jp_3", "iso2022jp_ext", "iso646_us", "iso_2022_jp",
              "iso_2022_jp_1", "iso_2022_jp_2", "iso_2022_jp_2004", "iso_2022_jp_3",
              "iso_2022_jp_ext", "iso_646.irv_1991", "iso_ir_6", "u8", "us", "us_ascii", "utf",
              "utf8", "utf8_ucs2", "utf8_ucs4"]

/-- The page of ASCII in which the tilde begins an escape. -/
def tildeEscaped : CodePage where
  names := ["hz"]
  aliases := ["hz_gb", "hz_gb_2312", "hzgb"]
  escape := some '~'

/-- The page in which each byte is the character of its number. -/
def latin1 : CodePage where
  names := ["charmap", "latin_1", "raw_unicode_escape", "unicode_escape"]
  aliases := ["cp819", "csisolatin1", "ibm819", "iso8859", "iso8859_1", "iso_8859_1",
              "iso_8859_1_1987", "iso_ir_100", "l1", "latin", "latin1"]
  upper := String.ofList ((List.range 128).map fun n => Char.ofNat (128 + n))

end CodePage

end PatternScore.Text
