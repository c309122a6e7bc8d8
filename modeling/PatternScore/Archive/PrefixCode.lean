import PatternScore.Archive.Bits

/-!
# Prefix codes

A symbol is written by a code of some bits, no code being the start of another. A code is known by
the lengths of its symbols' codes alone: shorter codes come before longer ones, and among codes of
one length those of smaller symbols come first.
-/

namespace PatternScore.Archive

/-- A code given by its lengths. -/
structure PrefixCode where
  /-- How many codes have each length, from one bit to the greatest length. -/
  counts : List Nat
  /-- The symbols in the order of their codes. -/
  symbols : Array Nat
  deriving Repr

namespace PrefixCode

/-- No code is longer than this. -/
def maxLength : Nat := 20

/-- The symbols whose codes have a length. -/
def symbolsOf (lengths : List Nat) (length : Nat) : List Nat :=
  (lengths.zipIdx.filter (·.1 == length)).map (·.2)

/-- The code in which the symbols, from zero on, have these lengths; a symbol of length zero has no
code. -/
def ofLengths (lengths : List Nat) : PrefixCode :=
  let longest := min maxLength (lengths.foldl max 0)
  let symbols := (List.range longest).map fun n => symbolsOf lengths (n + 1)
  { counts := symbols.map (·.length), symbols := symbols.flatten.toArray }

/-- No symbol has a code. -/
def isEmpty (c : PrefixCode) : Bool :=
  c.counts.isEmpty

/-- How many codes of the greatest length are left over; none if there are more codes than can be
told apart. -/
def spare? (c : PrefixCode) : Option Nat :=
  let next (spare count : Nat) : Option Nat :=
    if count ≤ 2 * spare then some (2 * spare - count) else none
  c.counts.foldlM next 1

/-- The lengths make a code: nothing is left over, or no symbol has a code, or, where that is
allowed, there is only one bit. -/
def isUsable (allowsSingle : Bool) (c : PrefixCode) : Bool :=
  match c.spare? with
  | none => false
  | some spare => spare == 0 || c.isEmpty || (allowsSingle && c.counts.length == 1)

/-- The place of the symbol whose code begins with `code`, if there is such a code. Of the lengths
behind it, `first` is the least code, and `index` the place of its symbol. -/
def placeFrom? (code first index : Nat) : List Nat → Bits → Option (Option Nat × Bits)
  | [], bits => some (none, bits)
  | count :: longer, bits => do
    let (bit, bits) ← bits.next?
    let code := code + bit.toNat
    if code < first + count then return (some (index + (code - first)), bits)
    placeFrom? (2 * code) (2 * (first + count)) (index + count) longer bits

/-- The next symbol, if its bits are the code of one. At least one bit is read. -/
def symbol? (c : PrefixCode) (bits : Bits) : Option (Option Nat × Bits) := do
  let counts := if c.isEmpty then [0] else c.counts
  let (place, bits) ← placeFrom? 0 0 0 counts bits
  return (place.bind (c.symbols[·]?), bits)

end PrefixCode

end PatternScore.Archive
