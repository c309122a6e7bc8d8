/-!
# Range codes

In a range code each bit narrows a range of numbers, by a share that a model gives it, and a number
in the range tells the bits. A model learns from each bit that it foretells. When the range becomes
small, the next byte is taken in.
-/

namespace PatternScore.Archive

/-- How far a range code is read. -/
structure RangeCode where
  /-- The bytes that are left. -/
  bytes : List UInt8
  /-- The size of the range. -/
  range : UInt32 := 0xFFFFFFFF
  /-- The number, counted from the start of the range. -/
  code : UInt32
  /-- Of 2048 bits of each model, how many are expected to be zero. -/
  models : Array UInt16

namespace RangeCode

/-- What a model expects before it has learned anything. -/
def even : UInt16 := 1024

/-- Takes in a byte if the range is small. -/
def refill? (c : RangeCode) : Option RangeCode :=
  if c.range < 0x1000000 then
    match c.bytes with
    | b :: bytes =>
      some { c with bytes, range := c.range <<< 8, code := (c.code <<< 8) ||| b.toUInt32 }
    | [] => none
  else some c

/-- The next bit, as a model foretells it. -/
def bit? (model : Nat) (c : RangeCode) : Option (Bool × RangeCode) :=
  match c.refill? with
  | none => none
  | some c =>
    let expected := c.models.getD model even
    let bound := (c.range >>> 11) * expected.toUInt32
    if c.code < bound then
      let learned := expected + ((2048 - expected) >>> 5)
      some (false, { c with range := bound, models := c.models.setIfInBounds model learned })
    else
      let learned := expected - (expected >>> 5)
      some (true, { c with
        range := c.range - bound, code := c.code - bound
        models := c.models.setIfInBounds model learned })

/-- The next bit, both values being as likely. -/
def evenBit? (c : RangeCode) : Option (Bool × RangeCode) :=
  match c.refill? with
  | none => none
  | some c =>
    let half := c.range >>> 1
    if c.code < half then some (false, { c with range := half })
    else some (true, { c with range := half, code := c.code - half })

/-- A number of so many bits with a model for each of its beginnings, read on from a beginning. The
first bit of a beginning is one, so that it tells how many bits are read. -/
def treeFrom? (base : Nat) : Nat → Nat → RangeCode → Option (Nat × RangeCode)
  | 0, beginning, c => some (beginning, c)
  | count + 1, beginning, c =>
    match c.bit? (base + beginning) with
    | some (bit, c) => treeFrom? base count (2 * beginning + bit.toNat) c
    | none => none

/-- A number of so many bits, the greatest first, with a model for each of its beginnings. -/
def tree? (base count : Nat) (c : RangeCode) : Option (Nat × RangeCode) :=
  (treeFrom? base count 1 c).map fun (n, c) => (n - Nat.pow 2 count, c)

/-- A number of so many bits, the least first, with a model for each of its beginnings. -/
def reverseTree? (base : Nat) : Nat → Nat → RangeCode → Option (Nat × RangeCode)
  | 0, _, c => some (0, c)
  | count + 1, beginning, c => do
    let (bit, c) ← c.bit? (base + beginning)
    let (rest, c) ← reverseTree? base count (2 * beginning + bit.toNat) c
    return (bit.toNat + 2 * rest, c)

/-- A number of so many bits, the greatest first, of which nothing is foretold. -/
def evenBits? : Nat → Nat → RangeCode → Option (Nat × RangeCode)
  | 0, n, c => some (n, c)
  | count + 1, n, c =>
    match c.evenBit? with
    | some (bit, c) => evenBits? count (2 * n + bit.toNat) c
    | none => none

end RangeCode

end PatternScore.Archive
