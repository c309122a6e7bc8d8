/-!
# Decimal digits of all scripts

Every script writes its ten digits at ten consecutive code points, so one table of the zeros gives
the value of any decimal digit. Characters such as superscripts and circled figures are digits for
the eye but have no place in a numeral; they are listed apart.

Numbers of any size are written here, and digits in any number are read. A runtime may refuse to do
so beyond some thousands of digits, as a guard that whoever runs it can move or lift. The guard is
part of the reading of numerals, whose failures a user sees (`Numeral.mostDigits`); in texts that
the program makes for itself, bar literals and the keys of bars, it is left out.
-/

namespace PatternScore.Text

/-- The code points of the zeros. -/
def zeroCodes : List Nat := [
  0x30, 0x660, 0x6f0, 0x7c0, 0x966, 0x9e6, 0xa66, 0xae6, 0xb66, 0xbe6, 0xc66, 0xce6, 0xd66, 0xde6,
  0xe50, 0xed0, 0xf20, 0x1040, 0x1090, 0x17e0, 0x1810, 0x1946, 0x19d0, 0x1a80, 0x1a90, 0x1b50,
  0x1bb0, 0x1c40, 0x1c50, 0xa620, 0xa8d0, 0xa900, 0xa9d0, 0xa9f0, 0xaa50, 0xabf0, 0xff10, 0x104a0,
  0x10d30, 0x11066, 0x110f0, 0x11136, 0x111d0, 0x112f0, 0x11450, 0x114d0, 0x11650, 0x116c0,
  0x11730, 0x118e0, 0x11950, 0x11c50, 0x11d50, 0x11da0, 0x16a60, 0x16ac0, 0x16b50, 0x1d7ce,
  0x1d7d8, 0x1d7e2, 0x1d7ec, 0x1d7f6, 0x1e140, 0x1e2f0, 0x1e950, 0x1fbf0]

/-- First and last code point of each run of figures that are no decimal digits. -/
def figureRanges : List (Nat × Nat) := [
  (0xb2, 0xb3), (0xb9, 0xb9), (0x1369, 0x1371), (0x19da, 0x19da), (0x2070, 0x2070),
  (0x2074, 0x2079), (0x2080, 0x2089), (0x2460, 0x2468), (0x2474, 0x247c), (0x2488, 0x2490),
  (0x24ea, 0x24ea), (0x24f5, 0x24fd), (0x24ff, 0x24ff), (0x2776, 0x277e), (0x2780, 0x2788),
  (0x278a, 0x2792), (0x10a40, 0x10a43), (0x10e60, 0x10e68), (0x11052, 0x1105a), (0x1f100, 0x1f10a)]

/-- The value of a decimal digit. -/
def digitValue? (c : Char) : Option Nat :=
  (zeroCodes.find? fun first => first ≤ c.toNat && c.toNat < first + 10).map (c.toNat - ·)

/-- The character is a decimal digit of some script. -/
def isDecimalDigit (c : Char) : Bool :=
  (digitValue? c).isSome

/-- The character is a decimal digit or another figure. -/
def isFigure (c : Char) : Bool :=
  isDecimalDigit c || figureRanges.any fun (first, last) => first ≤ c.toNat && c.toNat ≤ last

/-- The ASCII digit of a number below ten. -/
def asciiDigit (n : Nat) : Char :=
  Char.ofNat (48 + n % 10)

/-- The digits of a natural number, most significant first. -/
def natChars (n : Nat) : List Char :=
  if n < 10 then [asciiDigit n] else natChars (n / 10) ++ [asciiDigit n]

/-- The decimal text of an integer: its digits, after a minus sign if it is negative. -/
def intChars : Int → List Char
  | .ofNat n => natChars n
  | .negSucc n => '-' :: natChars (n + 1)

/-- The decimal text of a natural number, however many digits it has. -/
def nat (n : Nat) : String :=
  String.ofList (natChars n)

/-- The decimal text of an integer, however many digits it has. -/
def int (n : Int) : String :=
  String.ofList (intChars n)

/-- The number that a run of decimal digits stands for, read on from `start`. -/
def digitsValue (start : Nat) (cs : List Char) : Nat :=
  cs.foldl (fun n c => 10 * n + (digitValue? c).getD 0) start

end PatternScore.Text
