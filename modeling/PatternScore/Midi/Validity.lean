import PatternScore.Midi.File

/-!
# Numbers of messages

A file has only so many bits for every number of a message. A recording that does not come from a
file may hold any numbers; `Message.validated` passes a message on if its numbers fit their places.
-/

namespace PatternScore.Midi

/-- A number that fits the seven bits of a byte of data. -/
def dataByte (n : Int) : Except Failure Int :=
  if 0 ≤ n ∧ n ≤ 127 then .ok n else .error .notADataByte

/-- One of the sixteen channels. -/
def channelNumber (n : Int) : Except Failure Int :=
  if 0 ≤ n ∧ n ≤ 15 then .ok n else .error .notAChannel

/-- A number of a message about the track, between two bounds. -/
def numberBetween (least greatest n : Int) : Except Failure Int :=
  if least ≤ n ∧ n ≤ greatest then .ok n else .error (.attributeOutOfRange least greatest)

/-- The lower number of a meter, which files give by its binary logarithm. -/
def lowerNumber (n : Int) : Except Failure Int := do
  let n ← numberBetween 1 (Nat.pow 2 255) n
  let exponent := Nat.log2 n.toNat
  if Nat.pow 2 exponent = n.toNat ∧ hasWholeLog exponent then return n else .error .notAPowerOfTwo

/-- The names of the keys that have a signature. -/
def keyNames : List String :=
  (List.range 15).flatMap fun i =>
    [(Mode.major, ""), (Mode.minor, "m")].filterMap fun (mode, suffix) =>
      match Key.ofFifths ((i : Int) - 7) mode with
      | .ok key => some (key.root.text ++ suffix)
      | .error _ => none

/-- A message whose numbers fit their places. -/
def Message.validated : Message → Except Failure Message
  | noteOn channel note velocity => do
    return noteOn (← channelNumber channel) (← dataByte note) (← dataByte velocity)
  | noteOff channel note => do return noteOff (← channelNumber channel) (← dataByte note)
  | program number => do return program (← dataByte number)
  | tempo microseconds => do return tempo (← numberBetween 0 16777215 microseconds)
  | meter numerator denominator => do
    return meter (← numberBetween 0 255 numerator) (← lowerNumber denominator)
  | key name => if keyNames.contains name then .ok (key name) else .error (.invalidKey name)
  | m => .ok m

end PatternScore.Midi
