import PatternScore.Archive.Bits
import PatternScore.Archive.RangeCode
import PatternScore.Failure

/-!
# Data in chains of a range code

Data in a range code is a chain of bytes and copies of bytes that stood before. What a bit is
expected to be depends on what came last, on the place in the output, and, in a byte, on the byte
before it and on the byte that stands at the distance of the last copy. The last four distances are
kept, so that a copy can name one of them. A distance that is as great as can be ends the data.
-/

namespace PatternScore.Archive.Chain

/-! ## Parameters -/

/-- The parameters of the data. -/
structure Parameters where
  /-- How many bits of the byte before count in a byte. -/
  contextBits : Nat
  /-- How many bits of the place count in a byte. -/
  placeBits : Nat
  /-- How many bits of the place count elsewhere. -/
  alignBits : Nat
  /-- How far back a copy may reach. -/
  reach : Nat
  deriving DecidableEq, Repr

/-- The parameters that five bytes tell. The reach is a multiple of sixteen and 4096 at least. -/
def Parameters.ofBytes? : List UInt8 → Option Parameters
  | [packed, a, b, c, d] =>
    let packed := packed.toNat
    let rest := packed % 45
    let contextBits := rest % 9
    let placeBits := rest / 9
    let reach := a.toNat + 256 * (b.toNat + 256 * (c.toNat + 256 * d.toNat))
    if 225 ≤ packed ∨ 4 < contextBits + placeBits then none
    else some {
      contextBits, placeBits, alignBits := packed / 45
      reach := (max reach 4096 + 15) / 16 * 16 }
  | _ => none

/-! ## Models

The models stand in one row, each kind behind the other. -/

/-- The models that tell a byte from a copy, by what came last and by the place. -/
def copyModels : Nat := 0

/-- The models that tell whether a copy names a distance. -/
def namedModels : Nat := 192

/-- The models that tell whether a named distance is not the last one. -/
def notLastModels : Nat := 204

/-- The models that tell whether a named distance is not the last but one. -/
def notSecondModels : Nat := 216

/-- The models that tell whether a named distance is not the last but two. -/
def notThirdModels : Nat := 228

/-- The models that tell a single byte from a longer copy at the last distance. -/
def longModels : Nat := 240

/-- The models of the size of a distance, by the length of the copy. -/
def sizeModels : Nat := 432

/-- The models of the low bits of distances of a middle size. -/
def middleModels : Nat := 688

/-- The models of the last four bits of great distances. -/
def alignModels : Nat := 803

/-- The models of lengths of copies at a new distance. -/
def lengthModels : Nat := 819

/-- The models of lengths of copies at a named distance. -/
def namedLengthModels : Nat := 1333

/-- The models of bytes. -/
def byteModels : Nat := 1847

/-- All models, before they have learned anything. -/
def Parameters.models (p : Parameters) : Array UInt16 :=
  Array.replicate (byteModels + 0x300 * Nat.pow 2 (p.contextBits + p.placeBits)) RangeCode.even

/-! ## Numbers -/

/-- The length of a copy, by the place. -/
def length? (base place : Nat) (c : RangeCode) : Option (Nat × RangeCode) := do
  let (isLonger, c) ← c.bit? base
  if isLonger then
    let (isLongest, c) ← c.bit? (base + 1)
    if isLongest then
      let (n, c) ← c.tree? (base + 258) 8
      return (n + 18, c)
    else
      let (n, c) ← c.tree? (base + 130 + 8 * place) 3
      return (n + 10, c)
  else
    let (n, c) ← c.tree? (base + 2 + 8 * place) 3
    return (n + 2, c)

/-- A distance, counted from zero, by the length of the copy. -/
def distance? (length : Nat) (c : RangeCode) : Option (Nat × RangeCode) := do
  let (size, c) ← c.tree? (sizeModels + 64 * min (length - 2) 3) 6
  if size < 4 then return (size, c)
  let count := size / 2 - 1
  let high := (2 + size % 2) * Nat.pow 2 count
  if size < 14 then
    let (low, c) ← c.reverseTree? (middleModels + high - size - 1) count 1
    return (high + low, c)
  let (middle, c) ← c.evenBits? (count - 4) 0
  let (low, c) ← c.reverseTree? alignModels 4 1
  return (high + 16 * middle + low, c)

/-- A byte, read on from its beginning, where another byte is expected in its place; `rest` are the
bits of that byte which are not compared yet. As soon as the bytes differ, nothing is expected. -/
def expectedByte? (base : Nat) : Nat → List Bool → Nat → RangeCode → Option (Nat × RangeCode)
  | 0, _, beginning, c => some (beginning, c)
  | count + 1, [], beginning, c => c.treeFrom? base (count + 1) beginning
  | count + 1, wanted :: rest, beginning, c =>
    match c.bit? (base + 0x100 * (1 + wanted.toNat) + beginning) with
    | none => none
    | some (bit, c) =>
      expectedByte? base count (if bit == wanted then rest else []) (2 * beginning + bit.toNat) c

/-! ## Chains -/

/-- How far a chain is read. -/
structure Progress where
  /-- The bytes that are known. -/
  out : Array UInt8 := #[]
  /-- What came last, as a number below twelve: bytes for a long time, or a kind of copy and then
  bytes. -/
  state : Nat := 0
  /-- The last four distances, counted from zero. -/
  distances : Nat × Nat × Nat × Nat := (0, 0, 0, 0)

namespace Progress

/-- The byte at a distance, counted from zero. -/
def byteAt (p : Progress) (distance : Nat) : UInt8 :=
  p.out.getD (p.out.size - 1 - distance) 0

/-- Repeats `count` bytes, each from `distance` bytes before, counted from zero. -/
def copyBytes (distance : Nat) : Nat → Array UInt8 → Array UInt8
  | 0, out => out
  | count + 1, out =>
    copyBytes distance count (out.push (out.getD (out.size - 1 - distance) 0))

/-- Takes in a byte. -/
def addByte (p : Progress) (b : UInt8) : Progress :=
  { p with
    out := p.out.push b
    state := if p.state < 4 then 0 else if p.state < 10 then p.state - 3 else p.state - 6 }

/-- Takes in a copy at the first of the distances that are given. What came last becomes the one
number if it was a byte, and else the other. -/
def addCopy (p : Progress) (length : Nat) (distances : Nat × Nat × Nat × Nat)
    (behindByte behindCopy : Nat) : Progress :=
  { out := copyBytes distances.1 length p.out
    state := if p.state < 7 then behindByte else behindCopy
    distances }

/-- The byte that comes next. -/
def byte? (o : Parameters) (p : Progress) (c : RangeCode) : Option (UInt8 × RangeCode) :=
  let before := if p.out.isEmpty then 0 else (p.byteAt 0).toNat
  let context := p.out.size % Nat.pow 2 o.placeBits * Nat.pow 2 o.contextBits +
    before / Nat.pow 2 (8 - o.contextBits)
  let base := byteModels + 0x300 * context
  let wanted :=
    if p.state < 7 then []
    else (List.range 8).map fun i => (p.byteAt p.distances.1).toNat.testBit (7 - i)
  (expectedByte? base 8 wanted 1 c).map fun (n, c) => (n.toUInt8, c)

/-- A copy at one of the last distances: its length, and the distances in their new order. A single
byte at the last distance has the length one. -/
def namedCopy? (p : Progress) (place : Nat) (c : RangeCode) :
    Option ((Nat × (Nat × Nat × Nat × Nat)) × RangeCode) := do
  let (d0, d1, d2, d3) := p.distances
  let (notLast, c) ← c.bit? (notLastModels + p.state)
  if !notLast then
    let (isLong, c) ← c.bit? (longModels + 16 * p.state + place)
    if !isLong then return ((1, (d0, d1, d2, d3)), c)
    let (length, c) ← length? namedLengthModels place c
    return ((length, (d0, d1, d2, d3)), c)
  let (notSecond, c) ← c.bit? (notSecondModels + p.state)
  if !notSecond then
    let (length, c) ← length? namedLengthModels place c
    return ((length, (d1, d0, d2, d3)), c)
  let (notThird, c) ← c.bit? (notThirdModels + p.state)
  let (length, c) ← length? namedLengthModels place c
  return ((length, if notThird then (d3, d0, d1, d2) else (d2, d0, d1, d3)), c)

/-- A copy at a new distance: its length, and the distances. -/
def newCopy? (p : Progress) (place : Nat) (c : RangeCode) :
    Option ((Nat × (Nat × Nat × Nat × Nat)) × RangeCode) := do
  let (d0, d1, d2, _) := p.distances
  let (length, c) ← length? lengthModels place c
  let (distance, c) ← distance? length c
  return ((length, (distance, d0, d1, d2)), c)

/-- The bytes of a chain, behind those that are known, and whether the chain comes to its end. -/
def links (o : Parameters) : Nat → Progress → RangeCode → Array UInt8 × Except (Stop Unit) Unit
  | 0, p, _ => (p.out, .error .cut)
  | bound + 1, p, c =>
    let place := p.out.size % Nat.pow 2 o.alignBits
    match c.bit? (copyModels + 16 * p.state + place) with
    | none => (p.out, .error .cut)
    | some (false, c) =>
      match p.byte? o c with
      | some (b, c) => links o bound (p.addByte b) c
      | none => (p.out, .error .cut)
    | some (true, c) =>
      match c.bit? (namedModels + p.state) with
      | none => (p.out, .error .cut)
      | some (true, c) =>
        if p.out.isEmpty then (p.out, .error (.fault ()))
        else
          match p.namedCopy? place c with
          | none => (p.out, .error .cut)
          | some ((1, distances), c) => links o bound (p.addCopy 1 distances 9 11) c
          | some ((length, distances), c) => links o bound (p.addCopy length distances 8 11) c
      | some (false, c) =>
        match p.newCopy? place c with
        | none => (p.out, .error .cut)
        | some ((length, distances), c) =>
          if distances.1 = 0xFFFFFFFF then
            match c.refill? with
            | some c => (p.out, if c.code = 0 then .ok () else .error (.fault ()))
            | none => (p.out, .error .cut)
          else if distances.1 < min p.out.size o.reach then
            links o bound (p.addCopy length distances 7 10) c
          else (p.out, .error (.fault ()))

end Progress

/-- The bytes of data behind its parameters, as far as it goes, and whether it goes to its end. The
first byte of a range code is zero. No bit is foretold so well that it narrows the range by less
than a fiftieth of a bit, so that the number of bytes bounds the number of links. -/
def decode (o : Parameters) (data : List UInt8) : Array UInt8 × Except (Stop Unit) Unit :=
  match data with
  | 0 :: a :: b :: c :: d :: bytes =>
    let code := a.toUInt32 <<< 24 ||| b.toUInt32 <<< 16 ||| c.toUInt32 <<< 8 ||| d.toUInt32
    Progress.links o (400 * (bytes.length + 8)) {} { bytes, code, models := o.models }
  | 0 :: _ | [] => (#[], .error .cut)
  | _ => (#[], .error (.fault ()))

/-- The bytes of a member, as far as it goes, and whether it goes to its end. It begins with a
version in two bytes, and the number of bytes of the parameters in two bytes. -/
def expand (data : List UInt8) : Except ArchiveFailure (Array UInt8 × Bool) :=
  match data with
  | _ :: _ :: a :: b :: rest =>
    let size := a.toNat + 256 * b.toNat
    if rest.length ≤ size then .ok (#[], false)
    else
      match Parameters.ofBytes? (rest.take size) with
      | none => .error .rangeOptions
      | some o =>
        match decode o (rest.drop size) with
        | (_, .error (.fault _)) => .error .rangeData
        | (out, .error .cut) => .ok (out, false)
        | (out, .ok _) => .ok (out, true)
  | _ => .ok (#[], false)

end PatternScore.Archive.Chain
