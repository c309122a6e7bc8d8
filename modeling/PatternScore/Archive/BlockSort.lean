import PatternScore.Archive.PrefixCode

/-!
# Data sorted by blocks

A block of bytes is written as the last column of the table of its sorted rotations, in which equal
bytes stand together. The column is written by places in a list in which the byte used last comes to
the front, runs of the first place are counted in two digits, and all that in prefix codes, of which
every fifty symbols choose one. Before the sorting, a run of four equal bytes is followed by the
number of those that go on. Sums tell whether a block and the whole are undamaged.
-/

namespace PatternScore.Archive.BlockSort

/-- What reading gives, or why it stops. -/
abbrev Reading := Except (Stop Unit)

/-- Data that means nothing. -/
def damaged {α : Type} : Reading α :=
  .error (.fault ())

/-- What has to hold in data that means something. -/
def require (condition : Bool) : Reading Unit :=
  if condition then .ok () else damaged

/-- The next number of so many bits. -/
def number (count : Nat) (bits : Bits) : Reading (Nat × Bits) :=
  orCut (bits.highNumber? count)

/-! ## The head of a block -/

/-- The bytes that occur, told by sixteen bits for each run of sixteen bytes of which any occurs. -/
def bytesFrom? : List (Bool × Nat) → Bits → Option (List UInt8 × Bits)
  | [], bits => some ([], bits)
  | (false, _) :: runs, bits => bytesFrom? runs bits
  | (true, run) :: runs, bits => do
    let (used, bits) ← bits.take? 16
    let here := used.zipIdx.filterMap fun (isUsed, i) =>
      if isUsed then some (16 * run + i).toUInt8 else none
    let (rest, bits) ← bytesFrom? runs bits
    return (here ++ rest, bits)

/-- The bytes that occur in a block, in order. -/
def usedBytes? (bits : Bits) : Option (List UInt8 × Bits) := do
  let (runs, bits) ← bits.take? 16
  bytesFrom? runs.zipIdx bits

/-- A number written by as many ones, which is below a bound. -/
def ones (bound : Nat) (bits : Bits) : Reading (Nat × Bits) := do
  match bound with
  | 0 => damaged
  | bound + 1 =>
    let (bit, bits) ← orCut bits.next?
    if bit then
      let (n, bits) ← ones bound bits
      return (n + 1, bits)
    else return (0, bits)

/-- Some numbers written by ones, last first, before those that are read. -/
def onesFrom (bound : Nat) : Nat → List Nat → Bits → Reading (List Nat × Bits)
  | 0, done, bits => .ok (done, bits)
  | count + 1, done, bits =>
    match ones bound bits with
    | .ok (n, bits) => onesFrom bound count (n :: done) bits
    | .error stop => .error stop

/-- Moves the element at a place to the front. -/
def toFront {α : Type} (place : Nat) (xs : List α) : List α :=
  (xs[place]?).toList ++ xs.eraseIdx place

/-- The elements at some places, each of which is moved to the front when it is used. -/
def recalled {α : Type} : List Nat → List α → List α
  | [], _ => []
  | place :: places, xs =>
    let xs := toFront place xs
    xs.head?.toList ++ recalled places xs

/-- The length of a code: bits say whether it is longer or shorter than the last one, step by
step. -/
def codeLength : Nat → Nat → Bits → Reading (Nat × Bits)
  | 0, _, _ => .error .cut
  | bound + 1, length, bits => do
    require (1 ≤ length && length ≤ 20)
    let (changes, bits) ← orCut bits.next?
    if changes then
      let (shorter, bits) ← orCut bits.next?
      codeLength bound (if shorter then length - 1 else length + 1) bits
    else return (length, bits)

/-- The lengths of the codes of some symbols; those that are read are given last first. -/
def codeLengths : Nat → Nat → List Nat → Bits → Reading (List Nat × Bits)
  | 0, _, done, bits => .ok (done.reverse, bits)
  | count + 1, last, done, bits => do
    let (length, bits) ← codeLength (bits.length + 1) last bits
    codeLengths count length (length :: done) bits

/-- Some codes for as many symbols each. -/
def codes (symbols : Nat) : Nat → Bits → Reading (List PrefixCode × Bits)
  | 0, bits => .ok ([], bits)
  | count + 1, bits => do
    let (first, bits) ← number 5 bits
    let (lengths, bits) ← codeLengths symbols first [] bits
    let (rest, bits) ← codes symbols count bits
    return (.ofLengths lengths :: rest, bits)

/-! ## The symbols of a block -/

/-- How far the column of a block is read. -/
structure Column where
  /-- The bytes that occur, the one used last first. -/
  order : List UInt8
  /-- The bytes of the column. -/
  bytes : Array UInt8 := #[]
  /-- The length of the run that is being read. -/
  run : Nat := 0
  /-- What the next digit of its length counts; none if no run is being read. -/
  weight : Nat := 0

namespace Column

/-- A run has no more digits than make this. -/
def maxWeight : Nat := 2 * 1024 * 1024

/-- Writes the run that is being read. -/
def endRun (c : Column) : Column :=
  let b := c.order.headD 0
  { c with bytes := c.run.fold (fun _ _ bytes => bytes.push b) c.bytes, run := 0, weight := 0 }

/-- Takes in a digit of the length of a run, which is one or two. -/
def addDigit (c : Column) (digit : Nat) : Column :=
  let weight := max 1 c.weight
  { c with run := c.run + digit * weight, weight := 2 * weight }

/-- Takes in the byte at a place of the order. -/
def addPlace (c : Column) (place : Nat) : Column :=
  let order := toFront place c.order
  { c with order, bytes := c.bytes.push (order.headD 0) }

end Column

/-- The column behind what is read of it, up to the symbol that ends it. Every fifty symbols use the
next of the codes; `left` symbols still use the first of them. -/
def column (maxSize last : Nat) :
    Nat → Nat → List PrefixCode → Column → Bits → Reading (Column × Bits)
  | 0, _, _, _, _ => .error .cut
  | _ + 1, _, [], _, _ => damaged
  | bound + 1, 0, _ :: codes, c, bits => column maxSize last bound 50 codes c bits
  | bound + 1, left + 1, code :: codes, c, bits =>
    match code.symbol? bits with
    | none => .error .cut
    | some (none, _) => damaged
    | some (some symbol, bits) =>
      if symbol < 2 then
        if Column.maxWeight ≤ c.weight then damaged
        else column maxSize last bound left (code :: codes) (c.addDigit (symbol + 1)) bits
      else if maxSize < c.bytes.size + c.run then damaged
      else
        let c := c.endRun
        if symbol = last then .ok (c, bits)
        else if maxSize ≤ c.bytes.size then damaged
        else column maxSize last bound left (code :: codes) (c.addPlace (symbol - 1)) bits

/-! ## Undoing the sorting -/

/-- How many bytes of each value there are. -/
def byteCounts (bytes : Array UInt8) : Array Nat :=
  bytes.foldl (fun counts b => counts.modify b.toNat (· + 1)) (Array.replicate 256 0)

/-- Where the bytes of each value begin when they are sorted. -/
def byteStarts (bytes : Array UInt8) : Array Nat :=
  ((byteCounts bytes).foldl (fun (starts, sum) count => (starts.push sum, sum + count))
    ((#[] : Array Nat), 0)).1

/-- For each row of the sorted rotations, the row that is rotated by one byte less. -/
def nextRows (bytes : Array UInt8) : Array Nat :=
  let step (state : Array Nat × Array Nat × Nat) (b : UInt8) : Array Nat × Array Nat × Nat :=
    let (rows, starts, i) := state
    (rows.set! (starts.getD b.toNat 0) i, starts.modify b.toNat (· + 1), i + 1)
  (bytes.foldl step (Array.replicate bytes.size 0, byteStarts bytes, 0)).1

/-- The bytes of a block, `count` of them from a row on, behind those that are given last first. -/
def rotate (bytes : Array UInt8) (rows : Array Nat) : Nat → Nat → List UInt8 → List UInt8
  | 0, _, done => done.reverse
  | count + 1, row, done =>
    let row := rows.getD row 0
    rotate bytes rows count row (bytes.getD row 0 :: done)

/-- The bytes that were sorted, of which the row is given that is not rotated. -/
def unsort (bytes : Array UInt8) (row : Nat) : List UInt8 :=
  rotate bytes (nextRows bytes) bytes.size row []

/-- The lengths of the steps of a shuffled block. Of each step the last bit of the last byte but one
is turned over; behind the last step, they begin again. -/
def shuffleSteps : List Nat := [
  619, 720, 127, 481, 931, 816, 813, 233, 566, 247, 985, 724, 205, 454, 863, 491, 741, 242, 949,
  214, 733, 859, 335, 708, 621, 574, 73, 654, 730, 472, 419, 436, 278, 496, 867, 210, 399, 680, 480,
  51, 878, 465, 811, 169, 869, 675, 611, 697, 867, 561, 862, 687, 507, 283, 482, 129, 807, 591, 733,
  623, 150, 238, 59, 379, 684, 877, 625, 169, 643, 105, 170, 607, 520, 932, 727, 476, 693, 425, 174,
  647, 73, 122, 335, 530, 442, 853, 695, 249, 445, 515, 909, 545, 703, 919, 874, 474, 882, 500, 594,
  612, 641, 801, 220, 162, 819, 984, 589, 513, 495, 799, 161, 604, 958, 533, 221, 400, 386, 867,
  600, 782, 382, 596, 414, 171, 516, 375, 682, 485, 911, 276, 98, 553, 163, 354, 666, 933, 424, 341,
  533, 870, 227, 730, 475, 186, 263, 647, 537, 686, 600, 224, 469, 68, 770, 919, 190, 373, 294, 822,
  808, 206, 184, 943, 795, 384, 383, 461, 404, 758, 839, 887, 715, 67, 618, 276, 204, 918, 873, 777,
  604, 560, 951, 160, 578, 722, 79, 804, 96, 409, 713, 940, 652, 934, 970, 447, 318, 353, 859, 672,
  112, 785, 645, 863, 803, 350, 139, 93, 354, 99, 820, 908, 609, 772, 154, 274, 580, 184, 79, 626,
  630, 742, 653, 282, 762, 623, 680, 81, 927, 626, 789, 125, 411, 521, 938, 300, 821, 78, 343, 175,
  128, 250, 170, 774, 972, 275, 999, 639, 495, 78, 352, 126, 857, 956, 358, 619, 580, 124, 737, 594,
  701, 612, 669, 112, 134, 694, 363, 992, 809, 743, 168, 974, 944, 375, 748, 52, 600, 747, 642, 182,
  862, 81, 344, 805, 988, 739, 511, 655, 814, 334, 249, 515, 897, 955, 664, 981, 649, 113, 974, 459,
  893, 228, 433, 837, 553, 268, 926, 240, 102, 654, 459, 51, 686, 754, 806, 760, 493, 403, 415, 394,
  687, 700, 946, 670, 656, 610, 738, 392, 760, 799, 887, 653, 978, 321, 576, 617, 626, 502, 894,
  679, 243, 440, 680, 879, 194, 572, 640, 724, 926, 56, 204, 700, 707, 151, 457, 449, 797, 195, 791,
  558, 945, 679, 297, 59, 87, 824, 713, 663, 412, 693, 342, 606, 134, 108, 571, 364, 631, 212, 174,
  643, 304, 329, 343, 97, 430, 751, 497, 314, 983, 374, 822, 928, 140, 206, 73, 263, 980, 736, 876,
  478, 430, 305, 170, 514, 364, 692, 829, 82, 855, 953, 676, 246, 369, 970, 294, 750, 807, 827, 150,
  790, 288, 923, 804, 378, 215, 828, 592, 281, 565, 555, 710, 82, 896, 831, 547, 261, 524, 462, 293,
  465, 502, 56, 661, 821, 976, 991, 658, 869, 905, 758, 745, 193, 768, 550, 608, 933, 378, 286, 215,
  979, 792, 961, 61, 688, 793, 644, 986, 403, 106, 366, 905, 644, 372, 567, 466, 434, 645, 210, 389,
  550, 919, 135, 780, 773, 635, 389, 707, 100, 626, 958, 165, 504, 920, 176, 193, 713, 857, 265,
  203, 50, 668, 108, 645, 990, 626, 197, 510, 357, 358, 850, 858, 364, 936, 638]

/-- Undoes the shuffling of a block. -/
def unshuffle (bytes : List UInt8) : List UInt8 :=
  let rounds := bytes.length / shuffleSteps.foldl (· + ·) 0 + 1
  let turned := shuffleSteps.flatMap fun length => List.replicate (length - 2) 0 ++ [1, 0]
  bytes.zipWith (· ^^^ ·) (List.replicate rounds turned).flatten

/-- Undoes the counting of equal bytes: `seen` bytes equal to `last` came in front. After four of
them the number has to follow. -/
def expandRuns? (out : Array UInt8) (last : UInt8) : Nat → List UInt8 → Option (Array UInt8)
  | seen, [] => if seen = 4 then none else some out
  | seen, b :: rest =>
    if seen = 4 then
      expandRuns? (b.toNat.fold (fun _ _ out => out.push last) out) last 0 rest
    else if 0 < seen && b == last then expandRuns? (out.push b) last (seen + 1) rest
    else expandRuns? (out.push b) b 1 rest

/-! ## Sums -/

/-- One step of the sum, for one bit. -/
def sumStep (sum : UInt32) : UInt32 :=
  if sum &&& 0x80000000 = 0 then sum <<< 1 else (sum <<< 1) ^^^ 0x04C11DB7

/-- The sum with one more byte. -/
def sumByte (sum : UInt32) (b : UInt8) : UInt32 :=
  (List.range 8).foldl (fun sum _ => sumStep sum) (sum ^^^ (b.toUInt32 <<< 24))

/-- The sum of some bytes. -/
def sumOf (bytes : Array UInt8) : UInt32 :=
  bytes.foldl sumByte 0xFFFFFFFF ^^^ 0xFFFFFFFF

/-- The sum of the blocks with one more. -/
def joinSums (sum next : UInt32) : UInt32 :=
  ((sum <<< 1) ||| (sum >>> 31)) ^^^ next

/-! ## Blocks -/

/-- The mark of a block. -/
def blockMark : Nat := 0x314159265359

/-- The mark of the end. -/
def endMark : Nat := 0x177245385090

/-- No more choices of a code than this are used. -/
def maxChoices : Nat := 18002

/-- The column of a block, of so many bytes at most, and the row that is not rotated. -/
def blockColumn (maxSize : Nat) (bits : Bits) : Reading (Array UInt8 × Nat × Bits) := do
  let (row, bits) ← number 24 bits
  let (used, bits) ← orCut (usedBytes? bits)
  require (!used.isEmpty)
  let (codeCount, bits) ← number 3 bits
  require (2 ≤ codeCount && codeCount ≤ 6)
  let (choiceCount, bits) ← number 15 bits
  require (0 < choiceCount)
  let (places, bits) ← onesFrom codeCount choiceCount [] bits
  let (given, bits) ← codes (used.length + 2) codeCount bits
  let choices := recalled (places.reverse.take maxChoices) given
  let (c, bits) ←
    column maxSize (used.length + 1) (2 * bits.length + 2) 50 choices { order := used } bits
  require (row < c.bytes.size)
  return (c.bytes, row, bits)

/-- The bytes of a block behind its mark, with their sum. -/
def block (maxSize : Nat) (bits : Bits) : Reading (Array UInt8 × UInt32 × Bits) := do
  let (sum, bits) ← number 32 bits
  let (isShuffled, bits) ← orCut bits.next?
  let (bytes, row, bits) ← blockColumn maxSize bits
  let bytes := if isShuffled then unshuffle (unsort bytes row) else unsort bytes row
  match expandRuns? #[] 0 0 bytes with
  | some bytes => .ok (bytes, sum.toUInt32, bits)
  | none => damaged

/-- The blocks up to the end, behind the bytes that are known and their sum. The sum of a block is
looked at when the block is read. -/
def blocks (maxSize : Nat) : Nat → UInt32 → Array UInt8 → Bits → Array UInt8 × Reading Unit
  | 0, _, out, _ => (out, .error .cut)
  | bound + 1, sum, out, bits =>
    match number 48 bits with
    | .error stop => (out, .error stop)
    | .ok (mark, bits) =>
      if mark = blockMark then
        match block maxSize bits with
        | .error stop => (out, .error stop)
        | .ok (bytes, blockSum, bits) =>
          if sumOf bytes = blockSum then
            blocks maxSize bound (joinSums sum blockSum) (out ++ bytes) bits
          else (out, damaged)
      else if mark = endMark then
        (out, do
          let (total, _) ← number 32 bits
          require (total.toUInt32 = sum))
      else (out, damaged)

/-- The bytes that some data stands for, as far as it goes, and whether it goes to its end. The data
begins with three letters and the size of its blocks, in hundreds of thousands of bytes. -/
def expand? (data : List UInt8) : Option (Array UInt8 × Bool) :=
  match data with
  | 0x42 :: 0x5A :: 0x68 :: digit :: rest =>
    if 0x31 ≤ digit && digit ≤ 0x39 then
      let bits : Bits := { bytes := rest, highFirst := true }
      match blocks (100000 * (digit.toNat - 0x30)) (bits.length + 1) 0 #[] bits with
      | (_, .error (.fault _)) => none
      | (out, .error .cut) => some (out, false)
      | (out, .ok _) => some (out, true)
    else none
  | start => if start.isPrefixOf [0x42, 0x5A, 0x68] then some (#[], false) else none

end PatternScore.Archive.BlockSort
