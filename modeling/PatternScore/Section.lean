import PatternScore.Bar.Slot

/-!
# Sections between repeat signs

The repeat marks of a voice cut its bars into sections: a mark that opens a repeat begins a section
at its bar, and one that closes a repeat ends a section behind its bar. The first section that a
repeat closes is the main one; what comes before the first opening is the intro, what follows the
last closing the coda, or the outro if it is as long as the main section. Any other section is named
by its place. Without a closing there are no sections.
-/

namespace PatternScore

/-- A named run of bars. -/
structure Section where
  /-- The section's name. -/
  name : String
  /-- The number of its first bar. -/
  start : Int
  /-- The number of the bar behind it. -/
  stop : Int
  deriving DecidableEq, Repr

namespace Section

/-- How many bars the section has. -/
def length (s : Section) : Int :=
  s.stop - s.start

/-- The sections that are complete while the marks of a voice are read. -/
structure Scan where
  /-- The complete sections. -/
  done : List Section := []
  /-- The first bar of the section that is being read. -/
  start : Nat := 0
  /-- The length of the main section, once it is complete. -/
  main : Option Nat := none

namespace Scan

/-- The name of the section that comes next, by its place. -/
def nextName (s : Scan) : String :=
  "section" ++ Text.nat (s.done.length + 1)

/-- Ends the section at hand before the bar `stop`. -/
def endAt (s : Scan) (name : String) (stop : Nat) : Scan :=
  { s with done := s.done ++ [⟨name, s.start, stop⟩], start := stop }

/-- A mark that opens a repeat at the bar `position` ends what came before. -/
def opening (s : Scan) (position : Nat) : Scan :=
  if s.start < position then
    s.endAt (if s.done.isEmpty then "intro" else s.nextName) position
  else s

/-- A mark that closes a repeat at the bar `position` ends the section with it. -/
def closing (s : Scan) (position : Nat) : Scan :=
  match s.main with
  | some _ => s.endAt s.nextName (position + 1)
  | none => { s.endAt "main" (position + 1) with main := some (position + 1 - s.start) }

/-- The mark of the bar `position`. -/
def step (s : Scan) (position : Nat) (mark : Option RepeatMark) : Scan :=
  let s := if mark.any (·.isOpening) then s.opening position else s
  if mark.any (·.isClosing) then s.closing position else s

/-- The marks of the bars from `position` on. -/
def run (s : Scan) (position : Nat) : List (Option RepeatMark) → Scan
  | [] => s
  | mark :: rest => (s.step position mark).run (position + 1) rest

/-- All sections of a voice of `length` bars. -/
def finish (s : Scan) (length : Nat) : Option (List Section) :=
  match s.main with
  | none => none
  | some main =>
    if s.start < length then
      some (s.endAt (if length - s.start < main then "coda" else "outro") length).done
    else some s.done

end Scan

/-- The sections of a voice with the given marks, if a repeat closes in it. -/
def detect (marks : List (Option RepeatMark)) : Option (List Section) :=
  (Scan.run {} 0 marks).finish marks.length

/-- The sections that all voices have in common: all have the same number of bars and the same
sections. -/
def shared : List (List (Option RepeatMark)) → Option (List Section)
  | [] => none
  | first :: rest =>
    if rest.all (·.length == first.length) then
      match detect first with
      | some sections => if rest.all (detect · == some sections) then some sections else none
      | none => none
    else none

end Section

end PatternScore
