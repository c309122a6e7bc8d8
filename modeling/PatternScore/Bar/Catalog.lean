import PatternScore.Bar.Slot

/-!
# Catalogs of bars

A voice plays many bars and few different ones. A `Catalog` holds each different bar once, in the
order in which they first occur, and for every bar of the voice the number of its entry. Catalogs
are built in two ways, by the keys of the bars (`ofBars`) and one bar at a time (`add`).
-/

namespace PatternScore

/-- A bar with its number among the different bars of a voice. -/
structure UniqueBar where
  /-- The number of the bar. -/
  index : Nat
  /-- The content of the bar. -/
  tokens : Bar
  deriving DecidableEq, Repr

namespace UniqueBar

/-- The name of the bar. -/
def name (u : UniqueBar) : String :=
  "bar" ++ Text.nat u.index

end UniqueBar

/-- The different bars of a voice, and the order in which they are played. -/
structure Catalog where
  /-- The different bars, in the order in which they first occur. -/
  unique : List UniqueBar := []
  /-- The number of the entry of each bar of the voice. -/
  indices : List Nat := []
  deriving DecidableEq, Repr

namespace Catalog

/-- The bars of the voice in the order in which they are played. -/
def expand (c : Catalog) : List Bar :=
  c.indices.map fun i => (c.unique[i]?.map (·.tokens)).getD []

/-- How many bars the voice has. -/
def length (c : Catalog) : Nat :=
  c.indices.length

/-! ## One bar at a time -/

/-- The entry of a bar. -/
def find? (c : Catalog) (bar : Bar) : Option UniqueBar :=
  c.unique.find? (·.tokens == bar)

/-- The number that a bar has, or gets when it is new. -/
def indexOf (c : Catalog) (bar : Bar) : Nat :=
  ((c.find? bar).map (·.index)).getD c.unique.length

/-- The voice with one more bar at its end. -/
def add (c : Catalog) (bar : Bar) : Catalog :=
  match c.find? bar with
  | some u => { c with indices := c.indices ++ [u.index] }
  | none =>
    { unique := c.unique ++ [⟨c.unique.length, bar⟩]
      indices := c.indices ++ [c.unique.length] }

/-- The voice with rests of a whole bar at its end until it has `length` bars. -/
def padTo (length : Nat) (c : Catalog) : Catalog :=
  (List.range (length - c.length)).foldl (fun c _ => c.add Bar.empty) c

/-- The length of the longest voice. -/
def longest (catalogs : List Catalog) : Nat :=
  catalogs.foldl (fun n c => max n c.length) 0

/-- All voices, padded to the length of the longest. -/
def pad (catalogs : List Catalog) : List Catalog :=
  catalogs.map (padTo (longest catalogs))

/-! ## All bars at once -/

/-- A catalog under construction, with the numbers of its entries by key. -/
structure Index where
  /-- The catalog so far. -/
  catalog : Catalog := {}
  /-- The keys of the entries. -/
  seen : List (String × Nat) := []

/-- One more bar, looked up by its key. -/
def Index.add (x : Index) (bar : Bar) : Index :=
  match x.seen.lookup bar.key with
  | some i => { x with catalog := { x.catalog with indices := x.catalog.indices ++ [i] } }
  | none =>
    let i := x.catalog.unique.length
    { catalog :=
        { unique := x.catalog.unique ++ [⟨i, bar⟩], indices := x.catalog.indices ++ [i] }
      seen := (bar.key, i) :: x.seen }

/-- The catalog of the bars of a voice. -/
def ofBars (bars : List Bar) : Catalog :=
  (bars.foldl Index.add {}).catalog

end Catalog

end PatternScore
