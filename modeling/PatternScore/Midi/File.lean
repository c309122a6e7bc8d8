import PatternScore.Key.Basic
import PatternScore.Midi.Message
import PatternScore.Number.Binary64

/-!
# Standard MIDI files

A file is a header and some tracks, each behind four letters and a length. A track is read message
by message until exactly its length is read: a message that runs over the end is read with the bytes
behind it, and then the track never ends well. `Recording.decode` gives the recording or the defect.

A message may leave its status byte out and take that of the last one; a message about the track
itself (`aboutTrack`) neither takes nor leaves one.
-/

namespace PatternScore.Midi

/-! ## Defects -/

/-- Why a file cannot be decoded. -/
inductive Defect where
  /-- The file is not of the format, or ends early. -/
  | malformed
  /-- A message about the track has too few bytes. -/
  | short
  /-- A code for a frame rate that does not exist. -/
  | frameRate (code : Nat)
  /-- A key signature, in sharps or flats, that names no key. -/
  | signature (fifths : Int) (mode : Nat)
  deriving DecidableEq, Repr

/-- The failure to read the file at a path. -/
def Defect.failure (path : String) : Defect → Failure
  | malformed => .source (.unreadableMidi path)
  | short => .shortMessage
  | frameRate code => .unknownCode code
  | signature fifths mode => .recordedSignature fifths mode

/-! ## Bytes -/

/-- A place in a file. -/
structure Cursor where
  /-- The bytes from the place on. -/
  rest : List UInt8
  /-- How many bytes are read. -/
  position : Nat := 0
  deriving Repr

/-- A step of decoding. -/
abbrev Decode := StateT Cursor (Except Defect)

/-- The next byte. -/
def byte : Decode Nat := do
  let c ← get
  match c.rest with
  | b :: rest =>
    set { rest, position := c.position + 1 : Cursor }
    return b.toNat
  | [] => throw .malformed

/-- The next bytes, or as many as there are. -/
def upTo (count : Nat) : Decode (List Nat) := do
  let c ← get
  let taken := c.rest.take count
  set { rest := c.rest.drop count, position := c.position + taken.length : Cursor }
  return taken.map UInt8.toNat

/-- No message is longer. -/
def longest : Nat := 1000000

/-- The next bytes, all of which must be there. -/
def bytes (count : Nat) : Decode (List Nat) := do
  if longest < count then throw .malformed
  let taken ← upTo count
  if taken.length < count then throw .malformed
  return taken

/-- A number of any length, seven bits to a byte; the last byte has its highest bit clear. The
first argument bounds the number of bytes. -/
def quantityFrom : Nat → Nat → Decode Nat
  | 0, _ => throw .malformed
  | bound + 1, start => do
    let b ← byte
    let n := start * 128 + b % 128
    if b < 128 then return n else quantityFrom bound n

/-- A number of any length. -/
def quantity : Decode Nat := do
  quantityFrom ((← get).rest.length + 1) 0

/-- The number whose bytes are given, the highest first. -/
def bigEndian (bytes : List Nat) : Nat :=
  bytes.foldl (fun n b => n * 256 + b) 0

/-- The number of `bits` bits in two's complement. -/
def signed (bits n : Nat) : Int :=
  if n < Nat.pow 2 (bits - 1) then n else (n : Int) - Nat.pow 2 bits

/-! ## Messages about the track -/

/-- The byte at a place of a message. -/
def part (data : List Nat) (index : Nat) : Except Defect Nat :=
  match data[index]? with
  | some b => .ok b
  | none => .error .short

/-- A text of one byte to a character. -/
def latin (data : List Nat) : String :=
  String.ofList (data.map Char.ofNat)

/-- The natural logarithm of two. -/
def logTwo : Rat :=
  mkRat 693147180559945309417232121458176568 (Nat.pow 10 36)

/-- The binary logarithm of a power of two comes out whole, as the quotient of two natural
logarithms in binary floating-point numbers. -/
def hasWholeLog (exponent : Nat) : Bool :=
  Binary64.value (Binary64.nearest (exponent * logTwo) / Binary64.nearest logTwo) ==
    .finite exponent

/-- A meter: its upper number, the power of two of its lower number, and two numbers that do not
matter but must be there. -/
def meterOf (data : List Nat) : Except Defect Message := do
  let numerator ← part data 0
  let exponent ← part data 1
  if !hasWholeLog exponent then .error .malformed
  let _ ← part data 2
  let _ ← part data 3
  return .meter numerator (Nat.pow 2 exponent : Int)

/-- A key signature: a count of sharps or flats, and zero for major or one for minor. -/
def keyOf (data : List Nat) : Except Defect Message := do
  let fifths := signed 8 (← part data 0)
  let mode ← part data 1
  let minor := mode == 1
  match Key.ofFifths fifths (if minor then .minor else .major) with
  | .ok key =>
    if mode ≤ 1 then return .key (key.root.text ++ if minor then "m" else "")
    else .error (.signature fifths mode)
  | .error _ => .error (.signature fifths mode)

/-- A time of day, of which only the bounds matter. -/
def timeOf (data : List Nat) : Except Defect Message := do
  let rate := (← part data 0) / 32
  if 3 < rate then .error (.frameRate rate)
  if 59 < (← part data 1) then .error .malformed
  if 59 < (← part data 2) then .error .malformed
  let _ ← part data 3
  if 99 < (← part data 4) then .error .malformed
  return .other

/-- A tempo: three bytes of microseconds. -/
def tempoFrom (data : List Nat) : Except Defect Message := do
  return .tempo (bigEndian [← part data 0, ← part data 1, ← part data 2])

/-- A message about the track of a known kind. -/
def aboutTrack? (kind : Nat) (data : List Nat) : Option (Except Defect Message) :=
  match kind with
  | 0x00 => some do
    if !data.isEmpty then
      let _ ← part data 1
    return .other
  | 0x03 => some (.ok (.trackName (latin data)))
  | 0x01 | 0x02 | 0x04 | 0x05 | 0x06 | 0x07 | 0x09 | 0x21 | 0x2F | 0x7F => some (.ok .other)
  | 0x20 => some do
    let _ ← part data 0
    return .other
  | 0x51 => some (tempoFrom data)
  | 0x54 => some (timeOf data)
  | 0x58 => some (meterOf data)
  | 0x59 => some (keyOf data)
  | _ => none

/-- A message about the track, whose status byte is read. One of an unknown kind stands at the time
of the message before it. -/
def aboutTrack (delta : Nat) : Decode Step := do
  let kind ← byte
  let data ← bytes (← quantity)
  match aboutTrack? kind data with
  | some message => return ⟨delta, ← message⟩
  | none => return ⟨0, .other⟩

/-! ## Messages to the instrument -/

/-- How many bytes follow a status byte. -/
def dataLength? (status : Nat) : Option Nat :=
  if status < 0xC0 then some 2
  else if status < 0xE0 then some 1
  else if status < 0xF0 then some 2
  else
    match status with
    | 0xF1 | 0xF3 => some 1
    | 0xF2 => some 2
    | 0xF6 | 0xF8 | 0xFA | 0xFB | 0xFC | 0xFE => some 0
    | _ => none

/-- The message of a status byte and the bytes that follow it. -/
def messageOf (status : Nat) (data : List Nat) : Message :=
  let channel : Int := (status % 16 : Nat)
  match status / 16, data with
  | 0x8, [note, _] => .noteOff channel note
  | 0x9, [note, velocity] => .noteOn channel note velocity
  | 0xC, [number] => .program number
  | _, _ => .other

/-- A message to the instrument, of which the status byte is read and perhaps the first byte that
follows it. -/
def toInstrument (status : Nat) (first : List Nat) : Decode Message := do
  let some length := dataLength? status | throw .malformed
  if length < first.length then throw .malformed
  let data := first ++ (← bytes (length - first.length))
  if data.any (127 < ·) then throw .malformed
  return messageOf status data

/-- A message of any length for one make of instrument. The bytes that open and close it may be
among its data. -/
def exclusive : Decode Message := do
  let data ← bytes (← quantity)
  let data := if data.head? == some 0xF0 then data.drop 1 else data
  let data := if data.getLast? == some 0xF7 then data.dropLast else data
  if data.any (127 < ·) then throw .malformed
  return .other

/-! ## Tracks and files -/

/-- The next message. The status byte is read already, or taken from an earlier message. -/
def step (delta status : Nat) (first : List Nat) : Decode Step := do
  if status == 0xFF then aboutTrack delta
  else if status == 0xF0 || status == 0xF7 then return ⟨delta, ← exclusive⟩
  else return ⟨delta, ← toInstrument status first⟩

/-- The messages up to a place in the file. The first argument bounds their number; the last one is
the status byte that a message may leave out. -/
def stepsUpTo (stop : Nat) : Nat → Option Nat → Decode Track
  | 0, _ => throw .malformed
  | bound + 1, running => do
    if (← get).position == stop then return []
    let delta ← quantity
    let b ← byte
    if b < 128 then
      let some status := running | throw .malformed
      let first ← step delta status [b]
      return first :: (← stepsUpTo stop bound running)
    else
      let first ← step delta b []
      return first :: (← stepsUpTo stop bound (if b == 0xFF then running else some b))

/-- The length of a part of a file that begins with four letters. -/
def chunk (name : String) : Decode Nat := do
  let letters ← bytes 4
  let length ← bytes 4
  if latin letters != name then throw .malformed
  return bigEndian length

/-- A track. -/
def track : Decode Track := do
  let length ← chunk "MTrk"
  let c ← get
  stepsUpTo (c.position + length) (c.rest.length + 1) none

/-- Some tracks. -/
def tracks : Nat → Decode (List Track)
  | 0 => return []
  | count + 1 => do
    let first ← track
    return first :: (← tracks count)

/-- A file: its header holds a format, the number of tracks, and the ticks of a quarter note; what
else is in the header is left out. -/
def recording : Decode Recording := do
  let data ← upTo (← chunk "MThd")
  match data with
  | _ :: _ :: count₁ :: count₀ :: ticks₁ :: ticks₀ :: _ =>
    let count := signed 16 (bigEndian [count₁, count₀])
    return {
      tracks := ← tracks count.toNat
      ticksPerBeat := signed 16 (bigEndian [ticks₁, ticks₀]) }
  | _ => throw .malformed

/-- The recording that a file holds. -/
def Recording.decode (file : List UInt8) : Except Defect Recording :=
  recording.run' { rest := file }

end PatternScore.Midi
