import PatternScore.Failure
import PatternScore.Text.CodePage.Names
import PatternScore.Xml.Reader

/-!
# Encoded XML documents

The bytes of a document are read in units of two bytes if they begin so, and else in the encoding
that the document declares in its first line, which is UTF-8 if it declares none. A mark of the
byte order may stand in front. What the document declares has to agree with how it begins.
-/

namespace PatternScore.Xml

/-- Why the bytes of a document are not read. -/
inductive ReadFailure where
  /-- They are no well-formed document. -/
  | malformed
  /-- The encoding that they declare cannot be used. -/
  | encoding (reason : EncodingFailure)
  deriving DecidableEq, Repr

/-! ## Units of two bytes -/

/-- The units of two bytes each, of which the first is the higher one if `highFirst` says so. A
single byte at the end is no unit. -/
def units (highFirst : Bool) : List UInt8 → List Nat
  | a :: b :: rest =>
    let unit := if highFirst then a.toNat * 256 + b.toNat else b.toNat * 256 + a.toNat
    unit :: units highFirst rest
  | _ => []

/-- The characters of units of sixteen bits. A high surrogate makes one character with whatever unit
follows it, of which the last ten bits count. -/
def charsOfUnits? : List Nat → Option (List Char)
  | [] => some []
  | high :: rest =>
    if 0xD800 ≤ high && high < 0xDC00 then
      match rest with
      | low :: rest =>
        let code := 0x10000 + (high - 0xD800) * 0x400 + low % 0x400
        (charsOfUnits? rest).map (Char.ofNat code :: ·)
      | [] => none
    else if 0xDC00 ≤ high && high < 0xE000 then none
    else (charsOfUnits? rest).map (Char.ofNat high :: ·)

/-! ## Encodings by name -/

/-- How the bytes of a document are read. -/
inductive Encoding where
  /-- In UTF-8. -/
  | utf8
  /-- By a code page. -/
  | page (p : Text.CodePage)

/-- The encoding of a name that is known outside documents. -/
def Encoding.ofOtherName (name : String) : Except ReadFailure Encoding :=
  match Text.NamedEncoding.ofName? name with
  | some (.page p) => .ok (.page p)
  | some .foreign => .error .malformed
  | some .wide => .error (.encoding .wide)
  | some .transformation => .error (.encoding (.notOfText name))
  | some .hostNames => .error (.encoding (.hostNames name))
  | some .hostLabels => .error (.encoding .hostLabels)
  | some .undefined => .error (.encoding (.undefined name))
  | none => .error (.encoding (.unknown name))

/-- The names of encodings in units of two bytes, each with whether the higher byte comes first if
the name tells it. -/
def unitEncodings : List (String × Option Bool) :=
  [("utf-16", none), ("utf-16be", some true), ("utf-16le", some false)]

/-- The encoding that a document declares whose ASCII characters are one byte each. -/
def Encoding.ofName (name : String) : Except ReadFailure Encoding :=
  match name.map Char.toLower with
  | "utf-8" => .ok .utf8
  | "us-ascii" => .ok (.page .ascii)
  | "iso-8859-1" => .ok (.page .latin1)
  | key => if (unitEncodings.lookup key).isSome then .error .malformed else ofOtherName name

/-- A document in units of two bytes may declare this encoding. -/
def checkUnitEncoding (highFirst : Bool) (name : String) : Except ReadFailure Unit :=
  let key := name.map Char.toLower
  match unitEncodings.lookup key with
  | some order => if order.getD highFirst == highFirst then .ok () else .error .malformed
  | none =>
    if ["utf-8", "us-ascii", "iso-8859-1"].contains key then .error .malformed
    else do
      let _ ← Encoding.ofOtherName name
      .error .malformed

/-! ## Documents -/

/-- What is there, or the failure of a document that is not well-formed. -/
def orMalformed {α : Type} (a : Option α) : Except ReadFailure α :=
  match a with
  | some a => .ok a
  | none => .error .malformed

/-- The name of the encoding that a document declares, if it does. -/
def declaredEncoding (cs : List Char) : Except ReadFailure (Option String) :=
  (orMalformed (start? cs)).map fun (opening, _) => opening.encoding

/-- The characters of a document in units of two bytes. What it declares is looked at first, so that
the rest need not be read if it does not fit. -/
def charsOfUnitBytes (highFirst : Bool) (bytes : List UInt8) : Except ReadFailure (List Char) := do
  let units := units highFirst bytes
  let opening := (units.takeWhile fun u => u != 0x3E).map Char.ofNat
  match ← declaredEncoding (opening ++ ['>']) with
  | some name => checkUnitEncoding highFirst name
  | none => pure ()
  if bytes.length % 2 = 0 then orMalformed (charsOfUnits? units) else .error .malformed

/-- The characters of a document whose ASCII characters are one byte each. -/
def charsOfBytes (bytes : List UInt8) : Except ReadFailure (List Char) := do
  let encoding ←
    match ← declaredEncoding (bytes.map fun b => Char.ofNat b.toNat) with
    | some name => Encoding.ofName name
    | none => .ok .utf8
  match encoding with
  | .utf8 => (orMalformed (String.fromUTF8? (ByteArray.mk bytes.toArray))).map (·.toList)
  | .page p => orMalformed (p.decode? bytes)

/-- The characters of a document, without a mark of the byte order. -/
def documentChars : List UInt8 → Except ReadFailure (List Char)
  | 0xFE :: 0xFF :: rest => charsOfUnitBytes true rest
  | 0xFF :: 0xFE :: rest => charsOfUnitBytes false rest
  | 0xEF :: 0xBB :: 0xBF :: rest => charsOfBytes rest
  | 0 :: b :: rest => charsOfUnitBytes true (0 :: b :: rest)
  | b :: 0 :: rest => charsOfUnitBytes false (b :: 0 :: rest)
  | bytes => charsOfBytes bytes

/-- The document that some bytes write. -/
def Element.readBytes (bytes : List UInt8) : Except ReadFailure Element := do
  orMalformed (Element.ofChars? (← documentChars bytes))

end PatternScore.Xml
