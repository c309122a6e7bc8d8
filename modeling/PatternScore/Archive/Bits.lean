/-!
# Bits of bytes

Compressed data is read bit by bit. The bits of a byte come least first or greatest first, as the
kind of data has it, and reading stops where the bytes end.
-/

namespace PatternScore.Archive

/-- Why reading stops. -/
inductive Stop (ε : Type) where
  /-- The bytes end. -/
  | cut
  /-- The bytes mean nothing. -/
  | fault (reason : ε)
  deriving Repr

/-- What is there, or the end of the bytes. -/
def orCut {ε α : Type} (a : Option α) : Except (Stop ε) α :=
  match a with
  | some a => .ok a
  | none => .error .cut

/-- Bits that are left to be read: those of a byte that is read in part, then those of the bytes
behind it. -/
structure Bits where
  /-- The rest of the byte that is being read. -/
  current : List Bool := []
  /-- The bytes behind it. -/
  bytes : List UInt8
  /-- The greatest bit of a byte comes first. -/
  highFirst : Bool := false
  deriving Repr

namespace Bits

/-- The bits of a byte, the least first. -/
def ofByte (b : UInt8) : List Bool :=
  (List.range 8).map fun i => b.toNat.testBit i

/-- How many bits are left. Reading one takes one away, so no reader needs more steps than that. -/
def length (b : Bits) : Nat :=
  b.current.length + 8 * b.bytes.length

/-- The next bit. -/
def next? (b : Bits) : Option (Bool × Bits) :=
  match b.current with
  | bit :: rest => some (bit, { b with current := rest })
  | [] =>
    match b.bytes with
    | [] => none
    | byte :: bytes =>
      match if b.highFirst then (ofByte byte).reverse else ofByte byte with
      | bit :: rest => some (bit, { b with current := rest, bytes })
      | [] => none

/-- The next `count` bits. -/
def take? : Nat → Bits → Option (List Bool × Bits)
  | 0, b => some ([], b)
  | count + 1, b => do
    let (bit, b) ← b.next?
    let (rest, b) ← take? count b
    return (bit :: rest, b)

/-- The number that the next `count` bits write, the least bit first. -/
def number? (count : Nat) (b : Bits) : Option (Nat × Bits) :=
  (b.take? count).map fun (bits, b) => (bits.foldr (fun bit n => bit.toNat + 2 * n) 0, b)

/-- The number that the next `count` bits write, the greatest bit first. -/
def highNumber? (count : Nat) (b : Bits) : Option (Nat × Bits) :=
  (b.take? count).map fun (bits, b) => (bits.foldl (fun n bit => 2 * n + bit.toNat) 0, b)

/-- The bits from the next whole byte on. -/
def fromWholeByte (b : Bits) : Bits :=
  { b with current := [] }

end Bits

end PatternScore.Archive
