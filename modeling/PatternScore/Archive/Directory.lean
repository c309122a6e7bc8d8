import PatternScore.Archive.BlockSort
import PatternScore.Archive.Chain
import PatternScore.Archive.Deflate
import PatternScore.Text.CodePage.Names

/-!
# Members of archives

An archive ends with a directory of its members and a record that tells where the directory begins.
An entry of the directory names a member and tells where it stands; there, a header is followed by
the bytes of the member, as they are or compressed. A member whose sum does not fit is refused.
Sizes and places that need more than four bytes stand in fields of their own.
-/

namespace PatternScore.Archive

/-- Why an archive or a member is not read. -/
inductive ReadFailure where
  /-- The archive is damaged, or it is none. -/
  | damaged
  /-- The archive or the member is of a kind that is refused. -/
  | refused (reason : ArchiveFailure)
  deriving DecidableEq, Repr

/-- What reading gives, or why there is nothing. -/
abbrev Reading := Except ReadFailure

/-- What has to hold in an archive that is not damaged. -/
def require (condition : Bool) : Reading Unit :=
  if condition then .ok () else .error .damaged

/-- What must not be, or else the archive is refused. -/
def refuseIf (condition : Bool) (reason : ArchiveFailure) : Reading Unit :=
  if condition then .error (.refused reason) else .ok ()

/-! ## Numbers and sums -/

/-- The bytes of some data from a place on. -/
def slice (data : Array UInt8) (start count : Nat) : List UInt8 :=
  (data.extract start (start + count)).toList

/-- The number that bytes write, the least first. -/
def numberOf (bytes : List UInt8) : Nat :=
  bytes.foldr (fun b n => b.toNat + 256 * n) 0

/-- The number in `count` bytes at a place. -/
def numberAt (data : Array UInt8) (place count : Nat) : Nat :=
  numberOf (slice data place count)

/-- One step of the sum, for one bit. -/
def sumStep (sum : UInt32) : UInt32 :=
  if sum &&& 1 = 1 then (sum >>> 1) ^^^ 0xEDB88320 else sum >>> 1

/-- The sum with one more byte. -/
def sumByte (sum : UInt32) (b : UInt8) : UInt32 :=
  (List.range 8).foldl (fun sum _ => sumStep sum) (sum ^^^ b.toUInt32)

/-- The cyclic sum of some bytes, by which damage is noticed. -/
def checksum (data : Array UInt8) : UInt32 :=
  data.foldl sumByte 0xFFFFFFFF ^^^ 0xFFFFFFFF

/-! ## The end of an archive -/

/-- The mark of the record at the end of an archive. -/
def endMark : Nat := 0x06054B50

/-- The mark of the record that tells where a longer record of the end stands. -/
def locatorMark : Nat := 0x07064B50

/-- The mark of the longer record of the end. -/
def longEndMark : Nat := 0x06064B50

/-- The mark of an entry of the directory. -/
def entryMark : Nat := 0x02014B50

/-- The mark of the header of a member. -/
def memberMark : Nat := 0x04034B50

/-- The last of the places between two bounds at which the record of the end begins. -/
def lastMark? (data : Array UInt8) (least : Nat) : Nat → Option Nat
  | 0 => none
  | place + 1 =>
    if place < least then none
    else if numberAt data place 4 = endMark then some place
    else lastMark? data least place

/-- The place of the record of the end, which has 22 bytes, behind which there may be a remark of
65535 bytes at most. A record that ends the archive and has no remark comes before any other. -/
def endPlace? (data : Array UInt8) : Option Nat :=
  let last := data.size - 22
  if data.size < 22 then none
  else if numberAt data last 4 = endMark ∧ numberAt data (last + 20) 2 = 0 then some last
  else (lastMark? data (last - 65536) data.size).filter fun place => place ≤ last

/-- Where the directory stands. -/
structure Place where
  /-- Where it begins in the data. -/
  start : Nat
  /-- How many bytes it has. -/
  size : Nat
  /-- How far all members are behind the places that the directory tells. -/
  shift : Int

/-- The place of a directory of some size that ends at a place, where the record says that it begins
somewhere. -/
def Place.ending (stop size start : Nat) : Reading Place := do
  require (size ≤ stop)
  return { start := stop - size, size, shift := (stop : Int) - size - start }

/-- Where the directory stands. A longer record of the end holds instead of the one that is given,
if there is one in front of it; an archive in several parts is refused. -/
def Place.find (data : Array UInt8) : Reading Place := do
  match endPlace? data with
  | none => .error .damaged
  | some stop =>
    if 20 ≤ stop && numberAt data (stop - 20) 4 == locatorMark then
      require (numberAt data (stop - 16) 4 == 0 && numberAt data (stop - 4) 4 ≤ 1)
      require (76 ≤ stop)
      let long := stop - 76
      if numberAt data long 4 = longEndMark then
        Place.ending long (numberAt data (long + 40) 8) (numberAt data (long + 48) 8)
      else Place.ending stop (numberAt data (stop + 12) 4) (numberAt data (stop + 16) 4)
    else Place.ending stop (numberAt data (stop + 12) 4) (numberAt data (stop + 16) 4)

/-! ## The directory -/

/-- An entry of the directory. -/
structure Entry where
  /-- The name of the member as it is written. -/
  fullName : String
  /-- Marks of the member. -/
  flags : Nat
  /-- How the member is kept. -/
  method : Nat
  /-- The sum of the member. -/
  sum : Nat
  /-- How many bytes are kept. -/
  keptSize : Nat
  /-- How many bytes the member has. -/
  size : Nat
  /-- Where the member's header begins; a damaged archive may say that it is before the start. -/
  start : Int
  deriving Repr

/-- The name of the member; it ends before a character of the code zero. -/
def Entry.name (e : Entry) : String :=
  String.ofList (e.fullName.toList.takeWhile (·.toNat != 0))

/-- The code page of names that are not in UTF-8. -/
def namePage : Text.CodePage :=
  (Text.CodePage.all.find? (·.has "cp437")).getD .ascii

/-- The name that bytes write; a mark says whether it is in UTF-8. -/
def nameOf (flags : Nat) (bytes : List UInt8) : Reading String :=
  if flags.testBit 11 then
    (Text.decodeUtf8 bytes).mapError fun failure => .refused (.nameBytes failure)
  else .ok (String.ofList ((namePage.decode? bytes).getD []))

/-- The greatest number of four bytes, which stands for a number that needs more. -/
def tooGreat : Nat := 0xFFFFFFFF

/-- Takes a number of eight bytes from a field, if the number that is known stands for one. -/
def widen (isNeeded : Bool) (known : Nat) (field : List UInt8) : Reading (Nat × List UInt8) :=
  if !isNeeded then .ok (known, field)
  else if field.length < 8 then .error .damaged
  else .ok (numberOf (field.take 8), field.drop 8)

/-- An entry with the numbers of its further fields, each of which has a kind and a length. -/
def Entry.withFields : Nat → List UInt8 → Entry → Reading Entry
  | 0, _, e => .ok e
  | bound + 1, fields, e => do
    if fields.length < 4 then return e
    let length := numberOf ((fields.drop 2).take 2)
    let rest := fields.drop 4
    require (length ≤ rest.length)
    let e ←
      if numberOf (fields.take 2) = 1 then do
        let field := rest.take length
        let isGreat := e.size == tooGreat || e.size == Nat.pow 2 64 - 1
        let (size, field) ← widen isGreat e.size field
        let (keptSize, field) ← widen (e.keptSize == tooGreat) e.keptSize field
        let (start, _) ← widen (e.start == tooGreat) e.start.toNat field
        pure { e with size, keptSize, start }
      else pure e
    withFields bound (rest.drop length) e

/-- The entry at a place of a directory, and the place behind it. -/
def entryAt (directory : Array UInt8) (place : Nat) : Reading (Entry × Nat) := do
  require (place + 46 ≤ directory.size && numberAt directory place 4 == entryMark)
  let nameLength := numberAt directory (place + 28) 2
  let fieldsLength := numberAt directory (place + 30) 2
  let flags := numberAt directory (place + 8) 2
  let fullName ← nameOf flags (slice directory (place + 46) nameLength)
  let version := numberAt directory (place + 6) 1
  refuseIf (63 < version) (.version version)
  let entry : Entry :=
    { fullName, flags
      method := numberAt directory (place + 10) 2
      sum := numberAt directory (place + 16) 4
      keptSize := numberAt directory (place + 20) 4
      size := numberAt directory (place + 24) 4
      start := numberAt directory (place + 42) 4 }
  let fields := slice directory (place + 46 + nameLength) fieldsLength
  let entry ← entry.withFields fields.length fields
  let behind := nameLength + fieldsLength + numberAt directory (place + 32) 2
  return (entry, place + 46 + behind)

/-- The entries of a directory from a place on; those that are read are given last first. -/
def entriesFrom (directory : Array UInt8) : Nat → Nat → List Entry → Reading (List Entry)
  | 0, _, _ => .error .damaged
  | bound + 1, place, done =>
    if directory.size ≤ place then .ok done.reverse
    else
      match entryAt directory place with
      | .ok (e, place) => entriesFrom directory bound place (e :: done)
      | .error failure => .error failure

/-- The directory of an archive. -/
structure Directory where
  /-- Where it begins. -/
  start : Nat
  /-- Its entries. -/
  entries : List Entry

/-- The directory of an archive. -/
def Directory.read (data : Array UInt8) : Reading Directory := do
  let place ← Place.find data
  let directory := data.extract place.start (place.start + place.size)
  let entries ← entriesFrom directory (directory.size + 1) 0 []
  return {
    start := place.start
    entries := entries.map fun e => { e with start := e.start + place.shift } }

/-! ## Members -/

/-- The bytes that kept bytes stand for, as far as they go, and whether they go to their end. -/
def unpack (method : Nat) (kept : List UInt8) : Reading (Array UInt8 × Bool) :=
  match method with
  | 0 => .ok (kept.toArray, false)
  | 8 => (Deflate.expand kept).mapError fun fault => .refused (.deflated fault)
  | 12 =>
    match BlockSort.expand? kept with
    | some unpacked => .ok unpacked
    | none => .error .damaged
  | 14 => (Chain.expand kept).mapError .refused
  | _ => .error (.refused .method)

/-- Where the bytes of a member have to end, at the latest: where the next member begins, or the
directory. Of members that begin at the same place only the first one has any bytes. -/
def Directory.limit (d : Directory) (index : Nat) (e : Entry) : Int :=
  if (d.entries.take index).any (·.start == e.start) then e.start
  else
    (d.entries.filter (e.start < ·.start)).foldl (fun least f =>
      some (min f.start (least.getD f.start))) none |>.getD d.start

/-- The place of the bytes of a member behind its header, which repeats its name. -/
def Directory.bytesPlace (data : Array UInt8) (d : Directory) (index : Nat) (e : Entry) :
    Reading Nat := do
  require (0 ≤ e.start)
  let start := e.start.toNat
  require (start + 30 ≤ data.size && numberAt data start 4 == memberMark)
  let nameLength := numberAt data (start + 26) 2
  let place := min data.size (start + 30 + nameLength + numberAt data (start + 28) 2)
  refuseIf (e.flags.testBit 5) .patched
  refuseIf (e.flags.testBit 6) .stronglyEncrypted
  let name ← nameOf (numberAt data (start + 6) 2) (slice data (start + 30) nameLength)
  require (name == e.fullName)
  require (place + e.keptSize ≤ d.limit index e)
  return place

/-- The content of a member; of members of one name the last one counts. -/
def Directory.content (data : Array UInt8) (d : Directory) (name : String) :
    Reading (List UInt8) := do
  match d.entries.zipIdx.reverse.find? (·.1.name == name) with
  | none => .error .damaged
  | some (e, index) =>
    let place ← d.bytesPlace data index e
    refuseIf (e.flags.testBit 0) (.encrypted name)
    let kept := slice data place e.keptSize
    let (content, isWhole) ← unpack e.method kept
    refuseIf (kept.length < e.keptSize && !isWhole && content.size < e.size) .truncated
    let content := content.extract 0 e.size
    require ((checksum content).toNat == e.sum)
    return content.toList

end PatternScore.Archive
