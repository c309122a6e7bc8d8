import PatternScore.Text.Digit

/-!
# Bytes that are no UTF-8

`Utf8Failure.first?` finds the first place at which bytes stop being UTF-8, and says what is wrong
there: a byte that begins no character, one that does not go on with the character before it, or the
end of the bytes within a character.
-/

namespace PatternScore.Text

/-- Why bytes are no UTF-8. -/
inductive Utf8Fault where
  /-- A byte begins no character. -/
  | start
  /-- A character does not go on. -/
  | continuation
  /-- The bytes end within a character. -/
  | ending
  deriving DecidableEq, Repr

/-- The first place at which bytes are no UTF-8. -/
structure Utf8Failure where
  /-- Where the bytes that are wrong begin. -/
  place : Nat
  /-- The bytes that are wrong. -/
  bytes : List UInt8
  /-- What is wrong with them. -/
  fault : Utf8Fault
  deriving DecidableEq, Repr

namespace Utf8Failure

/-- How many bytes follow the first one of a character, and the least and the greatest value of the
next byte. -/
def following? (b : UInt8) : Option (Nat × UInt8 × UInt8) :=
  if b < 0x80 then some (0, 0x80, 0xBF)
  else if b < 0xC2 then none
  else if b < 0xE0 then some (1, 0x80, 0xBF)
  else if b < 0xF0 then
    some (2, if b == 0xE0 then 0xA0 else 0x80, if b == 0xED then 0x9F else 0xBF)
  else if b < 0xF5 then
    some (3, if b == 0xF0 then 0x90 else 0x80, if b == 0xF4 then 0x8F else 0xBF)
  else none

/-- What is wrong with a character of which `count` bytes are to follow, the first of them between
two values; the bytes of it that are read are given last first. -/
def withinCharacter (least greatest : UInt8) (read : List UInt8) :
    Nat → List UInt8 → Except (List UInt8 × Utf8Fault) (List UInt8)
  | 0, rest => .ok rest
  | _ + 1, [] => .error (read.reverse, .ending)
  | count + 1, b :: rest =>
    if least ≤ b && b ≤ greatest then withinCharacter 0x80 0xBF (b :: read) count rest
    else .error (read.reverse, .continuation)

/-- The first failure from a place on. -/
def firstFrom? : Nat → Nat → List UInt8 → Option Utf8Failure
  | _, _, [] => none
  | 0, _, _ :: _ => none
  | bound + 1, place, b :: rest =>
    match following? b with
    | none => some { place, bytes := [b], fault := .start }
    | some (count, least, greatest) =>
      match withinCharacter least greatest [b] count rest with
      | .ok rest => firstFrom? bound (place + 1 + count) rest
      | .error (bytes, fault) => some { place, bytes, fault }

/-- The first failure of some bytes. -/
def first? (bytes : List UInt8) : Option Utf8Failure :=
  firstFrom? bytes.length 0 bytes

/-- The two hexadecimal digits of a byte. -/
def byteText (b : UInt8) : String :=
  let digit (n : Nat) : Char := if n < 10 then Char.ofNat (48 + n) else Char.ofNat (87 + n)
  String.ofList [digit (b.toNat / 16), digit (b.toNat % 16)]

/-- The wording of the failure. -/
def message (f : Utf8Failure) : String :=
  let reason :=
    match f.fault with
    | .start => "invalid start byte"
    | .continuation => "invalid continuation byte"
    | .ending => "unexpected end of data"
  let subject :=
    match f.bytes with
    | [b] => "byte 0x" ++ byteText b ++ " in position " ++ nat f.place
    | bytes =>
      "bytes in position " ++ nat f.place ++ "-" ++ nat (f.place + bytes.length - 1)
  "'utf-8' codec can't decode " ++ subject ++ ": " ++ reason

end Utf8Failure

/-- The text that bytes write in UTF-8. -/
def decodeUtf8 (bytes : List UInt8) : Except Utf8Failure String :=
  match String.fromUTF8? (ByteArray.mk bytes.toArray) with
  | some s => .ok s
  | none => .error ((Utf8Failure.first? bytes).getD { place := 0, bytes := [], fault := .ending })

end PatternScore.Text
