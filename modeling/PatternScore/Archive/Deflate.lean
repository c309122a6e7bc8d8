import PatternScore.Archive.PrefixCode
import PatternScore.Failure

/-!
# Compressed data of blocks

Compressed data consists of blocks. A block holds bytes as they are, or symbols of prefix codes,
which are fixed or given in the block. A symbol stands for a byte, for the end of the block, or for
a length, behind which a distance says where the bytes of that length stood before. Data that ends
within a block stands for the bytes that are known by then.
-/

namespace PatternScore.Archive.Deflate

/-- What reading gives, or why it stops. -/
abbrev Reading := Except (Stop DeflateFault)

/-! ## Symbols -/

/-- The least length of each symbol for lengths, and how many bits say how much longer it is. -/
def lengthSymbols : Array (Nat × Nat) := #[
  (3, 0), (4, 0), (5, 0), (6, 0), (7, 0), (8, 0), (9, 0), (10, 0), (11, 1), (13, 1), (15, 1),
  (17, 1), (19, 2), (23, 2), (27, 2), (31, 2), (35, 3), (43, 3), (51, 3), (59, 3), (67, 4), (83, 4),
  (99, 4), (115, 4), (131, 5), (163, 5), (195, 5), (227, 5), (258, 0)]

/-- The least distance of each symbol for distances, and how many bits say how much farther it
is. -/
def distanceSymbols : Array (Nat × Nat) := #[
  (1, 0), (2, 0), (3, 0), (4, 0), (5, 1), (7, 1), (9, 2), (13, 2), (17, 3), (25, 3), (33, 4),
  (49, 4), (65, 5), (97, 5), (129, 6), (193, 6), (257, 7), (385, 7), (513, 8), (769, 8), (1025, 9),
  (1537, 9), (2049, 10), (3073, 10), (4097, 11), (6145, 11), (8193, 12), (12289, 12), (16385, 13),
  (24577, 13)]

/-- The two codes of a block. -/
structure BlockCodes where
  /-- The code of bytes, lengths and the end of the block. -/
  literals : PrefixCode
  /-- The code of distances. -/
  distances : PrefixCode

/-- The codes of blocks that give none. -/
def BlockCodes.fixed : BlockCodes :=
  { literals := .ofLengths
      (List.replicate 144 8 ++ List.replicate 112 9 ++ List.replicate 24 7 ++ List.replicate 8 8)
    distances := .ofLengths (List.replicate 32 5) }

/-- The next symbol of a code; bits that are no code are a fault. -/
def symbol (c : PrefixCode) (fault : DeflateFault) (bits : Bits) : Reading (Nat × Bits) := do
  match ← orCut (c.symbol? bits) with
  | (some symbol, bits) => .ok (symbol, bits)
  | (none, _) => .error (.fault fault)

/-- What a symbol of a table and the bits behind it stand for. -/
def amount (table : Array (Nat × Nat)) (fault : DeflateFault) (symbol : Nat) (bits : Bits) :
    Reading (Nat × Bits) := do
  match table[symbol]? with
  | some (least, count) =>
    let (more, bits) ← orCut (bits.number? count)
    return (least + more, bits)
  | none => .error (.fault fault)

/-- What symbols of a block stand for. -/
inductive Item where
  /-- A byte. -/
  | byte (b : UInt8)
  /-- Some bytes that stood so far before. -/
  | copy (length distance : Nat)
  /-- The end of the block. -/
  | blockEnd

/-- The next item of a block. -/
def item (codes : BlockCodes) (bits : Bits) : Reading (Item × Bits) := do
  let (s, bits) ← symbol codes.literals .literalCode bits
  if s < 256 then return (.byte s.toUInt8, bits)
  if s = 256 then return (.blockEnd, bits)
  let (length, bits) ← amount lengthSymbols .literalCode (s - 257) bits
  let (s, bits) ← symbol codes.distances .distanceCode bits
  let (distance, bits) ← amount distanceSymbols .distanceCode s bits
  return (.copy length distance, bits)

/-- Repeats `count` bytes, each from `distance` bytes before. -/
def repeatBytes (distance : Nat) : Nat → Array UInt8 → Array UInt8
  | 0, out => out
  | count + 1, out => repeatBytes distance count (out.push (out.getD (out.size - distance) 0))

/-- The items of a block up to its end, behind the bytes that are known. Each takes a bit or more,
so that the number of bits bounds the number of items. -/
def items (codes : BlockCodes) : Nat → Array UInt8 → Bits → Array UInt8 × Reading Bits
  | 0, out, _ => (out, .error .cut)
  | bound + 1, out, bits =>
    match item codes bits with
    | .error stop => (out, .error stop)
    | .ok (.blockEnd, bits) => (out, .ok bits)
    | .ok (.byte b, bits) => items codes bound (out.push b) bits
    | .ok (.copy length distance, bits) =>
      if out.size < distance then (out, .error (.fault .distanceTooFar))
      else items codes bound (repeatBytes distance length out) bits

/-! ## Codes given in a block -/

/-- The order in which the lengths of the code for lengths are written. -/
def lengthOrder : List Nat := [16, 17, 18, 0, 8, 7, 9, 6, 10, 5, 11, 4, 12, 3, 13, 2, 14, 1, 15]

/-- Some numbers of three bits. -/
def threeBits? : Nat → Bits → Option (List Nat × Bits)
  | 0, bits => some ([], bits)
  | count + 1, bits => do
    let (n, bits) ← bits.number? 3
    let (rest, bits) ← threeBits? count bits
    return (n :: rest, bits)

/-- The lengths that a symbol of the code for lengths adds: itself, or a run of the last length or
of zeros. -/
def lengthRun (last : Option Nat) (symbol : Nat) (bits : Bits) : Reading (List Nat × Bits) := do
  let run (length : Option Nat) (count least : Nat) : Reading (List Nat × Bits) := do
    let (more, bits) ← orCut (bits.number? count)
    match length with
    | some length => .ok (List.replicate (least + more) length, bits)
    | none => .error (.fault .lengthRepeat)
  match symbol with
  | 16 => run last 2 3
  | 17 => run (some 0) 3 3
  | 18 => run (some 0) 7 11
  | n => return ([n], bits)

/-- The lengths of two codes, `wanted` in number. Those that are read are given last first; every
symbol adds one or more. A code without symbols stands for zeros. -/
def lengths (code : PrefixCode) (wanted : Nat) :
    Nat → List Nat → Bits → Reading (List Nat × Bits)
  | 0, _, _ => .error .cut
  | bound + 1, done, bits =>
    if done.length = wanted then .ok (done.reverse, bits)
    else if wanted < done.length then .error (.fault .lengthRepeat)
    else do
      let (s, bits) ← orCut (code.symbol? bits)
      let (run, bits) ← lengthRun done.head? (s.getD 0) bits
      lengths code wanted bound (run ++ done) bits

/-- What has to hold, or else a fault. -/
def require (condition : Bool) (fault : DeflateFault) : Reading Unit :=
  if condition then .ok () else .error (.fault fault)

/-- The codes that a block begins with. -/
def BlockCodes.read (bits : Bits) : Reading (BlockCodes × Bits) := do
  let (literals, bits) ← orCut (bits.number? 5)
  let (distances, bits) ← orCut (bits.number? 5)
  let (count, bits) ← orCut (bits.number? 4)
  let literals := literals + 257
  let distances := distances + 1
  require (literals ≤ 286 && distances ≤ 30) .tooManySymbols
  let (written, bits) ← orCut (threeBits? (count + 4) bits)
  let lengthOf (symbol : Nat) : Nat := ((lengthOrder.zip written).lookup symbol).getD 0
  let code := PrefixCode.ofLengths ((List.range 19).map lengthOf)
  require (code.isUsable false) .lengthsSet
  let (given, bits) ← lengths code (literals + distances) (literals + distances + 1) [] bits
  require (given.getD 256 0 != 0) .noBlockEnd
  let codes : BlockCodes :=
    { literals := .ofLengths (given.take literals), distances := .ofLengths (given.drop literals) }
  require (codes.literals.isUsable true) .literalsSet
  require (codes.distances.isUsable true) .distancesSet
  return (codes, bits)

/-! ## Blocks -/

/-- The bytes of a block that holds them as they are: their number, its complement, then they. -/
def stored (out : Array UInt8) (bits : Bits) : Array UInt8 × Reading Bits :=
  match bits.bytes with
  | a :: b :: c :: d :: bytes =>
    let count := a.toNat + 256 * b.toNat
    if count + c.toNat + 256 * d.toNat ≠ 65535 then (out, .error (.fault .storedLengths))
    else
      let rest := { bits.fromWholeByte with bytes := bytes.drop count }
      (out ++ (bytes.take count).toArray, if bytes.length < count then .error .cut else .ok rest)
  | _ => (out, .error .cut)

/-- The content of a block of some kind, behind the bytes that are known. -/
def block (kind : Nat) (out : Array UInt8) (bits : Bits) : Array UInt8 × Reading Bits :=
  match kind with
  | 0 => stored out bits
  | 1 => items .fixed (bits.length + 1) out bits
  | 2 =>
    match BlockCodes.read bits with
    | .ok (codes, bits) => items codes (bits.length + 1) out bits
    | .error stop => (out, .error stop)
  | _ => (out, .error (.fault .blockType))

/-- The head of a block: whether it is the last one, and its kind. -/
def blockHead? (bits : Bits) : Option (Bool × Nat × Bits) := do
  let (isLast, bits) ← bits.next?
  let (kind, bits) ← bits.number? 2
  return (isLast, kind, bits)

/-- The content of the blocks up to the last one. -/
def blocks : Nat → Array UInt8 → Bits → Array UInt8 × Reading Bits
  | 0, out, _ => (out, .error .cut)
  | bound + 1, out, bits =>
    match blockHead? bits with
    | none => (out, .error .cut)
    | some (isLast, kind, bits) =>
      match block kind out bits with
      | (out, .error stop) => (out, .error stop)
      | (out, .ok bits) => if isLast then (out, .ok bits) else blocks bound out bits

/-- The bytes that compressed data stands for, as far as it goes, and whether it goes to its
end. -/
def expand (data : List UInt8) : Except DeflateFault (Array UInt8 × Bool) :=
  let bits : Bits := { bytes := data }
  match blocks (bits.length + 1) #[] bits with
  | (_, .error (.fault reason)) => .error reason
  | (out, .error .cut) => .ok (out, false)
  | (out, .ok _) => .ok (out, true)

end PatternScore.Archive.Deflate
