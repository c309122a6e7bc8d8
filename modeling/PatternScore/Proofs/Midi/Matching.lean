import Mathlib
import PatternScore.Midi.Pairing

/-!
# Strokes of keys and their ends

Every stroke of a key gives one note. Which message ends it can be said without a queue: the first
release of its key behind it that ends no earlier stroke of the key (`IsMatching`). The pairing of a
track follows this rule message by message: `Follows` ties its state to the matching of the messages
so far, `Follows.message` is the step and `exists_follows` the run. From the rule alone it follows
that no release ends two strokes and that the strokes of a key end in their order
(`Track.exists_paired`).
-/

namespace PatternScore.Midi

/-! ## Strokes and releases -/

/-- The key that a message strikes. -/
def Message.struck? : Message → Option KeyAt
  | noteOn channel note velocity => if 0 < velocity then some ⟨channel, note⟩ else none
  | _ => none

/-- The key that a message releases. -/
def Message.released? : Message → Option KeyAt
  | noteOn channel note velocity => if 0 < velocity then none else some ⟨channel, note⟩
  | noteOff channel note => some ⟨channel, note⟩
  | _ => none

/-- A stroke of a key in a list of messages. -/
structure Stroke where
  /-- The place of the message. -/
  place : Nat
  /-- The key that is struck. -/
  key : KeyAt
  /-- The tick of the message. -/
  tick : Int

/-- The strokes in a list of messages, in their order. -/
def strokes (ms : List (Int × Message)) : List Stroke :=
  ms.zipIdx.filterMap fun (x, place) => x.2.struck?.map (⟨place, ·, x.1⟩)

/-- The message at a place releases a key. -/
def ReleasedAt (ms : List (Int × Message)) (key : KeyAt) (place : Nat) : Prop :=
  ∃ x, ms[place]? = some x ∧ x.2.released? = some key

/-- A message can end a stroke: it comes later, releases the key, and ends no earlier stroke of the
key. -/
structure CanEnd (ms : List (Int × Message)) (ends : Nat → Option Nat) (s : Stroke)
    (place : Nat) : Prop where
  /-- It comes later. -/
  behind : s.place < place
  /-- It releases the key. -/
  released : ReleasedAt ms s.key place
  /-- It ends no earlier stroke of the key. -/
  free : ∀ s' ∈ strokes ms, s'.place < s.place → s'.key = s.key → ends s'.place ≠ some place

/-- Every stroke ends with the first message that can end it, if there is one. -/
def IsMatching (ms : List (Int × Message)) (ends : Nat → Option Nat) : Prop :=
  ∀ s ∈ strokes ms, ∀ place,
    ends s.place = some place ↔ IsLeast {place | CanEnd ms ends s place} place

/-- The note of a stroke. One that no message ends lasts to the tick `last`. -/
def noteOf (ms : List (Int × Message)) (ends : Nat → Option Nat) (last : Int) (s : Stroke) :
    TrackNote :=
  ⟨s.tick, (((ends s.place).bind (ms[·]?)).map (·.1)).getD last, s.key.note⟩

variable {ms : List (Int × Message)} {x : Int × Message} {ends ends' : Nat → Option Nat}
  {s s' : Stroke} {key : KeyAt}

/-! ## One more message -/

/-- One more message adds a stroke if it strikes a key, and none otherwise. -/
lemma strokes_append_singleton (ms : List (Int × Message)) (x : Int × Message) :
    strokes (ms ++ [x]) = strokes ms ++ (x.2.struck?.map (⟨ms.length, ·, x.1⟩)).toList := by
  rw [strokes, List.zipIdx_append, List.filterMap_append, ← strokes]
  cases h : x.2.struck? <;> simp [h]

/-- A stroke stands at the place of a message. -/
lemma place_lt (h : s ∈ strokes ms) : s.place < ms.length := by
  obtain ⟨⟨x, place⟩, hmem, hs⟩ := List.mem_filterMap.mp h
  obtain ⟨key, -, rfl⟩ := Option.map_eq_some_iff.mp hs
  exact (List.mem_zipIdx hmem).2.1.trans_eq (zero_add _)

/-- Strokes stand in the order of their places. -/
lemma pairwise_strokes (ms : List (Int × Message)) :
    (strokes ms).Pairwise fun s s' => s.place < s'.place := by
  induction ms using List.reverseRecOn with
  | nil => exact .nil
  | append_singleton ms x ih =>
    rw [strokes_append_singleton]
    cases x.2.struck? with
    | none => simpa using ih
    | some key =>
      refine List.pairwise_append.mpr ⟨ih, List.pairwise_singleton _ _, fun s hs s' hs' => ?_⟩
      rw [List.mem_singleton.mp hs']
      exact place_lt hs

/-- A stroke is told by its place. -/
lemma eq_of_place_eq (hs : s ∈ strokes ms) (hs' : s' ∈ strokes ms) (h : s.place = s'.place) :
    s = s' := by
  have hnodup : ((strokes ms).map Stroke.place).Nodup :=
    List.pairwise_map.mpr ((pairwise_strokes ms).imp fun hlt => hlt.ne)
  exact List.inj_on_of_nodup_map hnodup hs hs' h

/-- One more message releases a key at its own place, and at the others what was released there. -/
lemma releasedAt_append_singleton {place : Nat} : ReleasedAt (ms ++ [x]) key place ↔
    ReleasedAt ms key place ∨ place = ms.length ∧ x.2.released? = some key := by
  unfold ReleasedAt
  rcases lt_trichotomy place ms.length with h | rfl | h
  · simp [List.getElem?_append_left h, h.ne]
  · simp
  · simp [List.getElem?_append_right h.le, h.le, h.ne', Nat.sub_ne_zero_of_lt h]

/-- A key is released at the place of a message. -/
lemma ReleasedAt.lt {place : Nat} (h : ReleasedAt ms key place) : place < ms.length := by
  obtain ⟨x, hx, -⟩ := h
  exact (List.getElem?_eq_some_iff.mp hx).1

/-- A message releases one key. -/
lemma ReleasedAt.eq {key' : KeyAt} {place : Nat} (h : ReleasedAt ms key place)
    (h' : ReleasedAt ms key' place) : key = key' := by
  obtain ⟨x, hx, hkey⟩ := h
  obtain ⟨x', hx', hkey'⟩ := h'
  rw [hx, Option.some.injEq] at hx'
  subst hx'
  exact Option.some.inj (hkey.symm.trans hkey')

/-- An earlier stroke than one before the last message stands before it, too. -/
lemma mem_strokes_of_place_lt (h : s' ∈ strokes (ms ++ [x])) (hlt : s'.place < ms.length) :
    s' ∈ strokes ms := by
  rw [strokes_append_singleton] at h
  rcases List.mem_append.mp h with h | h
  · exact h
  · obtain ⟨key, -, rfl⟩ := Option.map_eq_some_iff.mp (Option.mem_toList.mp h)
    exact absurd hlt (lt_irrefl _)

/-- What can end a stroke when one more message has come: what could before, or the message. -/
lemma canEnd_append_singleton (hs : s ∈ strokes ms)
    (hsame : ∀ s ∈ strokes ms, ∀ place < ms.length,
      ends' s.place = some place ↔ ends s.place = some place) {place : Nat} :
    CanEnd (ms ++ [x]) ends' s place ↔ CanEnd ms ends s place ∨
      place = ms.length ∧ x.2.released? = some s.key ∧
        ∀ s' ∈ strokes ms, s'.place < s.place → s'.key = s.key →
          ends' s'.place ≠ some ms.length := by
  have hplace := place_lt hs
  have hearlier : ∀ {s'}, s' ∈ strokes (ms ++ [x]) → s'.place < s.place → s' ∈ strokes ms :=
    fun hs' hlt => mem_strokes_of_place_lt hs' (hlt.trans hplace)
  have hmem : ∀ {s'}, s' ∈ strokes ms → s' ∈ strokes (ms ++ [x]) := fun hs' => by
    rw [strokes_append_singleton]
    exact List.mem_append_left _ hs'
  constructor
  · rintro ⟨hbehind, hreleased, hfree⟩
    rcases releasedAt_append_singleton.mp hreleased with hold | ⟨rfl, hnew⟩
    · refine .inl ⟨hbehind, hold, fun s' hs' hlt hkey heq => ?_⟩
      exact hfree s' (hmem hs') hlt hkey ((hsame s' hs' place hold.lt).mpr heq)
    · exact .inr ⟨rfl, hnew, fun s' hs' => hfree s' (hmem hs')⟩
  · rintro (⟨hbehind, hreleased, hfree⟩ | ⟨rfl, hnew, hfree⟩)
    · refine ⟨hbehind, releasedAt_append_singleton.mpr (.inl hreleased), ?_⟩
      intro s' hs' hlt hkey heq
      have hs' := hearlier hs' hlt
      exact hfree s' hs' hlt hkey ((hsame s' hs' place hreleased.lt).mp heq)
    · exact ⟨hplace, releasedAt_append_singleton.mpr (.inr ⟨rfl, hnew⟩),
        fun s' hs' hlt => hfree s' (hearlier hs' hlt) hlt⟩

/-- Without an end, no message can end the stroke. -/
lemma IsMatching.not_canEnd (h : IsMatching ms ends) (hs : s ∈ strokes ms)
    (hopen : ends s.place = none) (place : Nat) : ¬ CanEnd ms ends s place := by
  intro hcan
  classical
  have hex : ∃ place, CanEnd ms ends s place := ⟨place, hcan⟩
  have hleast : IsLeast {place | CanEnd ms ends s place} (Nat.find hex) :=
    ⟨Nat.find_spec hex, fun _ h => Nat.find_min' hex h⟩
  rw [← h s hs, hopen] at hleast
  cases hleast

/-- A matching goes on with one more message if the message ends just the stroke that it should. -/
lemma IsMatching.append_singleton (h : IsMatching ms ends)
    (hsame : ∀ s ∈ strokes ms, ∀ place < ms.length,
      ends' s.place = some place ↔ ends s.place = some place)
    (hnew : ∀ s ∈ strokes ms, ends' s.place = some ms.length ↔
      ends s.place = none ∧ x.2.released? = some s.key ∧
        ∀ s' ∈ strokes ms, s'.place < s.place → s'.key = s.key → ends' s'.place ≠ some ms.length)
    (hle : ∀ place place', ends' place = some place' → place < place' ∧ place' ≤ ms.length) :
    IsMatching (ms ++ [x]) ends' := by
  intro s hs place
  by_cases hplace : s.place < ms.length
  · have hs := mem_strokes_of_place_lt hs hplace
    have hset := @canEnd_append_singleton ms x ends ends' s hs hsame
    cases hend : ends s.place with
    | some first =>
      have hleast := (h s hs first).mp hend
      have hfirst : first < ms.length := hleast.1.released.lt
      have hleast' : IsLeast {place | CanEnd (ms ++ [x]) ends' s place} first := by
        refine ⟨hset.mpr (.inl hleast.1), fun place hcan => ?_⟩
        rcases hset.mp hcan with hold | ⟨rfl, -⟩
        · exact hleast.2 hold
        · exact hfirst.le
      rw [(hsame s hs first hfirst).mpr hend, Option.some.injEq]
      exact ⟨fun heq => heq ▸ hleast', fun hplace => hleast'.unique hplace⟩
    | none =>
      have hold := h.not_canEnd hs hend
      have hlast : CanEnd (ms ++ [x]) ends' s place ↔
          place = ms.length ∧ ends' s.place = some ms.length := by
        rw [hset, hnew s hs]
        simp [hold, hend]
      have honly : ∀ place', CanEnd (ms ++ [x]) ends' s place' → place' = ms.length := by
        intro place' hcan
        exact ((hset.mp hcan).resolve_left (hold _)).1
      constructor
      · intro heq
        have hplace' : place = ms.length := by
          by_contra hne
          have hlt := lt_of_le_of_ne (hle _ _ heq).2 hne
          rw [hsame s hs place hlt, hend] at heq
          cases heq
        refine ⟨hlast.mpr ⟨hplace', hplace' ▸ heq⟩, fun place' hcan => ?_⟩
        exact (hplace'.trans (honly place' hcan).symm).le
      · intro hleast
        obtain ⟨rfl, heq⟩ := hlast.mp hleast.1
        exact heq
  · -- No message stands behind the last one.
    constructor
    · intro heq
      have := hle _ _ heq
      omega
    · intro hleast
      have hbehind := hleast.1.behind
      have hlt := hleast.1.released.lt
      simp only [List.length_append, List.length_singleton] at hlt
      omega

/-! ## What the rule says of two strokes -/

/-- No release ends two strokes. -/
lemma IsMatching.eq_of_ends_eq (h : IsMatching ms ends) (hs : s ∈ strokes ms)
    (hs' : s' ∈ strokes ms) {place : Nat} (hend : ends s.place = some place)
    (hend' : ends s'.place = some place) : s = s' := by
  have hcan := ((h s hs place).mp hend).1
  have hcan' := ((h s' hs' place).mp hend').1
  have hkey : s.key = s'.key := hcan.released.eq hcan'.released
  rcases lt_trichotomy s.place s'.place with hlt | heq | hlt
  · exact absurd hend (hcan'.free s hs hlt hkey)
  · exact eq_of_place_eq hs hs' heq
  · exact absurd hend' (hcan.free s' hs' hlt hkey.symm)

/-- The strokes of a key end in their order. -/
lemma IsMatching.exists_ends_lt (h : IsMatching ms ends) (hs : s ∈ strokes ms)
    (hs' : s' ∈ strokes ms) (hkey : s.key = s'.key) (hlt : s.place < s'.place) {place' : Nat}
    (hend' : ends s'.place = some place') : ∃ place < place', ends s.place = some place := by
  have hcan' := ((h s' hs' place').mp hend').1
  have hcan : CanEnd ms ends s place' :=
    { behind := hlt.trans hcan'.behind
      released := hkey ▸ hcan'.released
      free := fun s'' hs'' hlt'' hkey'' =>
        hcan'.free s'' hs'' (hlt''.trans hlt) (hkey''.trans hkey) }
  obtain ⟨place, hend⟩ : ∃ place, ends s.place = some place := by
    by_contra hnone
    refine h.not_canEnd hs (Option.eq_none_iff_forall_ne_some.mpr fun place hend => ?_) place' hcan
    exact hnone ⟨place, hend⟩
  refine ⟨place, lt_of_le_of_ne (((h s hs place).mp hend).2 hcan) ?_, hend⟩
  rintro rfl
  exact hlt.ne (congrArg Stroke.place (h.eq_of_ends_eq hs hs' hend hend'))

/-- Where time does not run backwards, the notes of a key end in the order of their strokes. -/
lemma IsMatching.stop_le_stop (h : IsMatching ms ends) {last : Int}
    (htime : ms.Pairwise fun x y => x.1 ≤ y.1) (hlast : ∀ x ∈ ms, x.1 ≤ last)
    (hs : s ∈ strokes ms) (hs' : s' ∈ strokes ms) (hkey : s.key = s'.key)
    (hlt : s.place < s'.place) :
    (noteOf ms ends last s).stop ≤ (noteOf ms ends last s').stop := by
  have hstop : ∀ s ∈ strokes ms, ∀ place, ends s.place = some place →
      ∃ hplace : place < ms.length, (noteOf ms ends last s).stop = ms[place].1 := by
    intro s hs place hend
    have hplace := ((h s hs place).mp hend).1.released.lt
    exact ⟨hplace, by simp [noteOf, hend, List.getElem?_eq_getElem hplace]⟩
  cases hend' : ends s'.place with
  | some place' =>
    obtain ⟨place, hplaces, hend⟩ := h.exists_ends_lt hs hs' hkey hlt hend'
    obtain ⟨hplace, heq⟩ := hstop s hs place hend
    obtain ⟨hplace', heq'⟩ := hstop s' hs' place' hend'
    rw [heq, heq']
    exact List.pairwise_iff_getElem.mp htime place place' hplace hplace' hplaces
  | none =>
    have hheld : (noteOf ms ends last s').stop = last := by simp [noteOf, hend']
    rw [hheld]
    cases hend : ends s.place with
    | some place =>
      obtain ⟨hplace, heq⟩ := hstop s hs place hend
      rw [heq]
      exact hlast _ (List.getElem_mem hplace)
    | none => exact le_of_eq (by simp [noteOf, hend])

/-! ## The pairing of a track -/

/-- The strokes that no message has ended. -/
def openStrokes (ms : List (Int × Message)) (ends : Nat → Option Nat) : List Stroke :=
  (strokes ms).filter fun s => (ends s.place).isNone

/-- The strokes that a message has ended. -/
def closedStrokes (ms : List (Int × Message)) (ends : Nat → Option Nat) : List Stroke :=
  (strokes ms).filter fun s => (ends s.place).isSome

/-- A stroke as the pairing holds it. -/
def Stroke.entry (s : Stroke) : KeyAt × Int :=
  (s.key, s.tick)

namespace Pairing

/-- A pairing has followed some messages: it holds the strokes that are open and has the notes of
those that are closed. -/
structure Follows (ms : List (Int × Message)) (ends : Nat → Option Nat) (p : Pairing) : Prop where
  /-- The strokes are matched. -/
  matching : IsMatching ms ends
  /-- A stroke ends behind its place, with one of the messages. -/
  ends_lt : ∀ place place', ends place = some place' → place < place' ∧ place' < ms.length
  /-- The open strokes are held. -/
  held_eq : p.held = (openStrokes ms ends).map Stroke.entry
  /-- The closed ones are notes. -/
  notes_perm : ∀ last, p.notes.Perm ((closedStrokes ms ends).map (noteOf ms ends last))

variable {p : Pairing}

/-- Before the first message the pairing holds nothing and has no notes. -/
lemma follows_nil : Follows [] (fun _ => none) {} where
  matching := by simp [IsMatching, strokes]
  ends_lt := by simp
  held_eq := rfl
  notes_perm _ := .refl _

/-- The first entry of a key in the queue is its first open stroke. -/
lemma lookup_entry (l : List Stroke) (key : KeyAt) :
    (l.map Stroke.entry).lookup key = (l.find? fun s => s.key == key).map Stroke.tick := by
  induction l with
  | nil => rfl
  | cons s l ih =>
    rw [List.map_cons, List.find?_cons, Stroke.entry, List.lookup_cons, ih, BEq.comm]
    cases s.key == key <;> rfl

/-- The first open stroke of a key among all strokes. -/
lemma exists_first_open
    (hfind : (openStrokes ms ends).find? (fun s => s.key == key) = some s) :
    s.key = key ∧ ends s.place = none ∧ ∃ before after, strokes ms = before ++ s :: after ∧
      ∀ s' ∈ before, ends s'.place = none → s'.key ≠ key := by
  obtain ⟨hkey, first, last, hopen, hfirst⟩ := List.find?_eq_some_iff_append.mp hfind
  obtain ⟨front, back, hsplit, hfront, hback⟩ := List.filter_eq_append_iff.mp hopen
  obtain ⟨skipped, after, rfl, hskipped, hnone, -⟩ := List.filter_eq_cons_iff.mp hback
  refine ⟨by simpa using hkey, by simpa using hnone, front ++ skipped, after, by simp [hsplit], ?_⟩
  intro s' hs' hend
  rcases List.mem_append.mp hs' with hs' | hs'
  · have hmem : s' ∈ first := hfront ▸ List.mem_filter.mpr ⟨hs', by simp [hend]⟩
    simpa using hfirst s' hmem
  · exact absurd (by simp [hend]) (hskipped s' hs')

/-- One more message changes no note whose stroke keeps its end. -/
lemma noteOf_append_singleton (last : Int)
    (hlt : ∀ place, ends s.place = some place → place < ms.length)
    (hsame : ends' s.place = ends s.place) :
    noteOf (ms ++ [x]) ends' last s = noteOf ms ends last s := by
  unfold noteOf
  rw [hsame]
  cases hend : ends s.place with
  | none => rfl
  | some place => simp [List.getElem?_append_left (hlt place hend)]

/-- A message that is no stroke and releases nothing that is held changes nothing. -/
lemma Follows.pass (h : Follows ms ends p) (hstruck : x.2.struck? = none)
    (hreleased : ∀ s ∈ openStrokes ms ends, x.2.released? ≠ some s.key) :
    Follows (ms ++ [x]) ends p := by
  have hstrokes : strokes (ms ++ [x]) = strokes ms := by
    rw [strokes_append_singleton, hstruck]
    exact List.append_nil _
  refine ⟨h.matching.append_singleton (fun _ _ _ _ => Iff.rfl) (fun s hs => ?_)
    (fun place place' heq => ?_), fun place place' heq => ?_, ?_, fun last => ?_⟩
  · constructor
    · intro heq
      exact absurd (h.ends_lt _ _ heq).2 (lt_irrefl _)
    · rintro ⟨hopen, heq, -⟩
      exact absurd heq (hreleased s (List.mem_filter.mpr ⟨hs, by simp [hopen]⟩))
  · exact (h.ends_lt _ _ heq).imp_right le_of_lt
  · have := h.ends_lt _ _ heq
    simp only [List.length_append, List.length_singleton]
    omega
  · rw [openStrokes, hstrokes]
    exact h.held_eq
  · rw [closedStrokes, hstrokes]
    refine (h.notes_perm last).trans (List.Perm.of_eq (List.map_congr_left fun s _ => ?_))
    exact (noteOf_append_singleton last (fun place heq => (h.ends_lt _ _ heq).2) rfl).symm

/-- A stroke is held, and nothing behind it has ended it. -/
lemma Follows.strike (h : Follows ms ends p) (hstruck : x.2.struck? = some key)
    (hreleased : x.2.released? = none) : Follows (ms ++ [x]) ends (p.strike key x.1) := by
  have hstrokes : strokes (ms ++ [x]) = strokes ms ++ [⟨ms.length, key, x.1⟩] := by
    rw [strokes_append_singleton, hstruck]
    rfl
  have hend : ends ms.length = none := by
    by_contra hsome
    obtain ⟨place, hplace⟩ := Option.ne_none_iff_exists'.mp hsome
    have := h.ends_lt _ _ hplace
    omega
  refine ⟨h.matching.append_singleton (fun _ _ _ _ => Iff.rfl) (fun s hs => ?_)
    (fun place place' heq => ?_), fun place place' heq => ?_, ?_, fun last => ?_⟩
  · constructor
    · intro heq
      exact absurd (h.ends_lt _ _ heq).2 (lt_irrefl _)
    · rintro ⟨-, heq, -⟩
      rw [hreleased] at heq
      cases heq
  · exact (h.ends_lt _ _ heq).imp_right le_of_lt
  · have := h.ends_lt _ _ heq
    simp only [List.length_append, List.length_singleton]
    omega
  · rw [openStrokes, hstrokes, List.filter_append, ← openStrokes, List.map_append, ← h.held_eq]
    simp [Pairing.strike, hend, Stroke.entry]
  · rw [closedStrokes, hstrokes, List.filter_append, ← closedStrokes]
    simp only [hend, Option.isSome_none, Bool.false_eq_true, not_false_eq_true,
      List.filter_cons_of_neg, List.filter_nil, List.append_nil]
    refine (h.notes_perm last).trans (List.Perm.of_eq (List.map_congr_left fun s _ => ?_))
    exact (noteOf_append_singleton last (fun place heq => (h.ends_lt _ _ heq).2) rfl).symm

/-- The ends when one more message ends a stroke. -/
def endsWith (ms : List (Int × Message)) (ends : Nat → Option Nat) (s : Stroke) :
    Nat → Option Nat :=
  Function.update ends s.place (some ms.length)

/-- The other strokes end as before. -/
lemma endsWith_of_ne {place : Nat} (h : place ≠ s.place) :
    endsWith ms ends s place = ends place :=
  Function.update_of_ne h _ _

/-- The stroke ends with the message that is added. -/
lemma endsWith_self : endsWith ms ends s s.place = some ms.length :=
  Function.update_self _ _ _

/-- A release that ends the first open stroke of its key keeps to the rule. -/
lemma Follows.matching_endsWith (h : Follows ms ends p) (hreleased : x.2.released? = some s.key)
    (hs : s ∈ strokes ms) (hopen : ends s.place = none)
    (hfirst : ∀ s' ∈ strokes ms, s'.place < s.place → ends s'.place = none → s'.key ≠ s.key) :
    IsMatching (ms ++ [x]) (endsWith ms ends s) := by
  have hold : ∀ place, ends place ≠ some ms.length :=
    fun place heq => absurd (h.ends_lt _ _ heq).2 (lt_irrefl _)
  refine h.matching.append_singleton (fun s' _ place hlt => ?_) (fun s' hs' => ?_)
    fun place place' heq => ?_
  · by_cases hplace : s'.place = s.place
    · rw [hplace, endsWith_self, hopen]
      simp [hlt.ne']
    · rw [endsWith_of_ne hplace]
  · by_cases hplace : s'.place = s.place
    · obtain rfl := eq_of_place_eq hs' hs hplace
      refine iff_of_true endsWith_self ⟨hopen, hreleased, fun s'' _ hlt _ => ?_⟩
      rw [endsWith_of_ne hlt.ne]
      exact hold _
    · rw [endsWith_of_ne hplace]
      refine iff_of_false (hold _) ?_
      rintro ⟨hopen', hkey, hfree⟩
      have hkey := Option.some.inj (hreleased.symm.trans hkey)
      rcases lt_or_gt_of_ne hplace with hlt | hlt
      · exact hfirst s' hs' hlt hopen' hkey.symm
      · exact hfree s hs hlt hkey endsWith_self
  · by_cases hplace : place = s.place
    · rw [hplace, endsWith_self, Option.some.injEq] at heq
      rw [hplace, ← heq]
      exact ⟨place_lt hs, le_rfl⟩
    · rw [endsWith_of_ne hplace] at heq
      exact (h.ends_lt _ _ heq).imp_right le_of_lt

/-- Ending a stroke moves no other. -/
lemma filter_endsWith (f : Option Nat → Bool) {l : List Stroke}
    (h : ∀ s' ∈ l, s'.place ≠ s.place) :
    l.filter (fun s' => f (endsWith ms ends s s'.place)) = l.filter fun s' => f (ends s'.place) :=
  List.filter_congr fun s' hs' => by rw [endsWith_of_ne (h s' hs')]

/-- The strokes before and behind one. -/
lemma place_lt_of_split {before after : List Stroke} (h : strokes ms = before ++ s :: after) :
    (∀ s' ∈ before, s'.place < s.place) ∧ ∀ s' ∈ after, s.place < s'.place := by
  have hplaces := pairwise_strokes ms
  rw [h, List.pairwise_append, List.pairwise_cons] at hplaces
  obtain ⟨-, ⟨hafter, -⟩, hcross⟩ := hplaces
  exact ⟨fun s' hs' => hcross s' hs' s List.mem_cons_self, hafter⟩

section EndFirst

variable {before after : List Stroke} (hsplit : strokes ms = before ++ s :: after)
  (hopen : ends s.place = none) (hstruck : x.2.struck? = none)
include hsplit hopen hstruck

/-- A stroke that is ended leaves the open ones. -/
lemma held_endsWith (hbefore : ∀ s' ∈ before, ends s'.place = none → s'.key ≠ s.key) :
    ((openStrokes ms ends).map Stroke.entry).eraseP (·.1 == s.key) =
      (openStrokes (ms ++ [x]) (endsWith ms ends s)).map Stroke.entry := by
  obtain ⟨hlt, hgt⟩ := place_lt_of_split hsplit
  have hheld : openStrokes ms ends = before.filter (fun s => (ends s.place).isNone) ++
      s :: after.filter fun s => (ends s.place).isNone := by
    rw [openStrokes, hsplit, List.filter_append, List.filter_cons_of_pos (by simp [hopen])]
  have hheld' : openStrokes (ms ++ [x]) (endsWith ms ends s) =
      before.filter (fun s => (ends s.place).isNone) ++
        after.filter fun s => (ends s.place).isNone := by
    rw [openStrokes, strokes_append_singleton, hstruck, hsplit, Option.map_none,
      Option.toList_none, List.append_nil, List.filter_append,
      List.filter_cons_of_neg (by simp [endsWith_self]),
      filter_endsWith Option.isNone fun s' hs' => (hlt s' hs').ne,
      filter_endsWith Option.isNone fun s' hs' => (hgt s' hs').ne']
  have hskip : ∀ s' ∈ before.filter (fun s => (ends s.place).isNone),
      ¬ ((fun e : KeyAt × Int => e.1 == s.key) ∘ Stroke.entry) s' = true := by
    intro s' hs'
    obtain ⟨hs', hnone⟩ := List.mem_filter.mp hs'
    simpa [Stroke.entry] using hbefore s' hs' (by simpa using hnone)
  rw [hheld', hheld, List.eraseP_map, List.eraseP_append_right _ hskip,
    List.eraseP_cons_of_pos (by simp [Stroke.entry])]

/-- A stroke that is ended joins the closed ones. -/
lemma closedStrokes_endsWith :
    (closedStrokes (ms ++ [x]) (endsWith ms ends s)).Perm (s :: closedStrokes ms ends) := by
  obtain ⟨hlt, hgt⟩ := place_lt_of_split hsplit
  rw [closedStrokes, closedStrokes, strokes_append_singleton, hstruck, hsplit, Option.map_none,
    Option.toList_none, List.append_nil, List.filter_append, List.filter_append,
    List.filter_cons_of_pos (by simp [endsWith_self]), List.filter_cons_of_neg (by simp [hopen]),
    filter_endsWith Option.isSome fun s' hs' => (hlt s' hs').ne,
    filter_endsWith Option.isSome fun s' hs' => (hgt s' hs').ne']
  exact List.perm_middle

end EndFirst

/-- A release ends the first of the strokes of its key that are held. -/
lemma Follows.endFirst (h : Follows ms ends p) (hreleased : x.2.released? = some key)
    (hstruck : x.2.struck? = none)
    (hfind : (openStrokes ms ends).find? (fun s => s.key == key) = some s) :
    Follows (ms ++ [x]) (endsWith ms ends s)
      { held := p.held.eraseP (·.1 == key), notes := p.notes ++ [⟨s.tick, x.1, key.note⟩] } := by
  obtain ⟨rfl, hopen, before, after, hsplit, hbefore⟩ := exists_first_open hfind
  obtain ⟨-, hgt⟩ := place_lt_of_split hsplit
  have hs : s ∈ strokes ms := by
    rw [hsplit]
    exact List.mem_append_right _ List.mem_cons_self
  have hfirst : ∀ s' ∈ strokes ms, s'.place < s.place → ends s'.place = none → s'.key ≠ s.key := by
    intro s' hs' hplace
    rw [hsplit] at hs'
    rcases List.mem_append.mp hs' with hs' | hs'
    · exact hbefore s' hs'
    · rcases List.mem_cons.mp hs' with rfl | hs'
      · exact absurd hplace (lt_irrefl _)
      · exact absurd hplace (hgt s' hs').asymm
  refine ⟨h.matching_endsWith hreleased hs hopen hfirst, fun place place' heq => ?_, ?_,
    fun last => ?_⟩
  · rw [List.length_append, List.length_singleton]
    by_cases hplace : place = s.place
    · rw [hplace, endsWith_self, Option.some.injEq] at heq
      rw [hplace, ← heq]
      exact ⟨place_lt hs, Nat.lt_succ_self _⟩
    · rw [endsWith_of_ne hplace] at heq
      exact (h.ends_lt _ _ heq).imp_right fun hlt => hlt.trans (Nat.lt_succ_self _)
  · rw [h.held_eq]
    exact held_endsWith hsplit hopen hstruck hbefore
  · have hnote : noteOf (ms ++ [x]) (endsWith ms ends s) last s = ⟨s.tick, x.1, s.key.note⟩ := by
      simp [noteOf, endsWith_self]
    have hnotes : (closedStrokes ms ends).map (noteOf (ms ++ [x]) (endsWith ms ends s) last) =
        (closedStrokes ms ends).map (noteOf ms ends last) := by
      refine List.map_congr_left fun s' hs' => ?_
      have hne : s'.place ≠ s.place := by
        intro heq
        have hsome := (List.mem_filter.mp hs').2
        rw [heq, hopen] at hsome
        cases hsome
      exact noteOf_append_singleton last (fun place heq => (h.ends_lt _ _ heq).2)
        (endsWith_of_ne hne)
    refine List.Perm.trans ?_ ((closedStrokes_endsWith hsplit hopen hstruck).map _).symm
    rw [List.map_cons, hnote, hnotes]
    exact (List.perm_append_singleton _ _).trans ((h.notes_perm last).cons _)

/-- A release ends the first of the strokes of its key that are held, if there is one. -/
lemma Follows.release (h : Follows ms ends p) (hreleased : x.2.released? = some key)
    (hstruck : x.2.struck? = none) :
    ∃ ends', Follows (ms ++ [x]) ends' (p.release key x.1) := by
  have hlookup : p.held.lookup key =
      ((openStrokes ms ends).find? fun s => s.key == key).map Stroke.tick := by
    rw [h.held_eq, lookup_entry]
  unfold Pairing.release
  cases hfind : (openStrokes ms ends).find? fun s => s.key == key with
  | none =>
    rw [hlookup, hfind]
    refine ⟨ends, h.pass hstruck fun s hs heq => ?_⟩
    have hne := List.find?_eq_none.mp hfind s hs
    rw [hreleased, Option.some.injEq] at heq
    simp [heq] at hne
  | some s =>
    rw [hlookup, hfind]
    exact ⟨_, h.endFirst hreleased hstruck hfind⟩

/-- A pairing goes on to follow the messages. -/
lemma Follows.message (h : Follows ms ends p) (x : Int × Message) :
    ∃ ends', Follows (ms ++ [x]) ends' (p.message x) := by
  obtain ⟨tick, m⟩ := x
  cases m with
  | noteOn channel note velocity =>
    by_cases hloud : 0 < velocity
    · have hmessage : p.message (tick, .noteOn channel note velocity) =
          p.strike ⟨channel, note⟩ tick := if_pos hloud
      rw [hmessage]
      exact ⟨ends, h.strike (if_pos hloud) (if_pos hloud)⟩
    · have hmessage : p.message (tick, .noteOn channel note velocity) =
          p.release ⟨channel, note⟩ tick := if_neg hloud
      rw [hmessage]
      exact h.release (if_neg hloud) (if_neg hloud)
  | noteOff channel note => exact h.release rfl rfl
  | _ => exact ⟨ends, h.pass rfl fun _ _ h => by cases h⟩

/-- The pairing of a list of messages follows them. -/
lemma exists_follows (ms : List (Int × Message)) :
    ∃ ends, Follows ms ends (ms.foldl Pairing.message {}) := by
  induction ms using List.reverseRecOn with
  | nil => exact ⟨_, follows_nil⟩
  | append_singleton ms x ih =>
    obtain ⟨ends, h⟩ := ih
    rw [List.foldl_append]
    exact h.message x

/-- When the track ends, every stroke has its note. -/
lemma Follows.finish (h : Follows ms ends p) (last : Int) :
    (p.finish last).Perm ((strokes ms).map (noteOf ms ends last)) := by
  have hheld : p.finish last = p.notes ++ (openStrokes ms ends).map (noteOf ms ends last) := by
    rw [Pairing.finish, h.held_eq, List.map_map]
    refine congrArg (p.notes ++ ·) (List.map_congr_left fun s hs => ?_)
    have hopen : ends s.place = none := by simpa using (List.mem_filter.mp hs).2
    simp [noteOf, hopen, Stroke.entry]
  have hopen : openStrokes ms ends =
      (strokes ms).filter fun s => !(ends s.place).isSome := by
    simp [openStrokes]
  rw [hheld]
  refine ((h.notes_perm last).append_right _).trans ?_
  rw [← List.map_append, hopen]
  exact (List.filter_append_perm _ _).map _

end Pairing

/-! ## The notes of a track -/

/-- Time does not run backwards where no message comes before the one before it. -/
lemma le_foldl_delta {t : Track} (hdelta : ∀ step ∈ t, 0 ≤ step.delta) (tick : Int) :
    tick ≤ t.foldl (fun tick e => tick + e.delta) tick := by
  induction t generalizing tick with
  | nil => exact le_rfl
  | cons step rest ih =>
    have hstep := hdelta step List.mem_cons_self
    have hle := ih (fun step h => hdelta step (List.mem_cons_of_mem _ h)) (tick + step.delta)
    rw [List.foldl_cons]
    omega

/-- The messages of a track stand between the ticks at which it begins and ends. -/
lemma mem_timedFrom {t : Track} (hdelta : ∀ step ∈ t, 0 ≤ step.delta) (tick : Int)
    {x : Int × Message} (hx : x ∈ timedFrom tick t) :
    tick ≤ x.1 ∧ x.1 ≤ t.foldl (fun tick e => tick + e.delta) tick := by
  induction t generalizing tick with
  | nil => exact absurd hx List.not_mem_nil
  | cons step rest ih =>
    have hstep := hdelta step List.mem_cons_self
    have hrest : ∀ step ∈ rest, 0 ≤ step.delta :=
      fun step h => hdelta step (List.mem_cons_of_mem _ h)
    rw [List.foldl_cons]
    rcases List.mem_cons.mp hx with rfl | hx
    · exact ⟨by simpa using hstep, le_foldl_delta hrest _⟩
    · exact (ih hrest _ hx).imp_left fun hle => by omega

/-- Time does not run backwards in a track. -/
lemma pairwise_timedFrom {t : Track} (hdelta : ∀ step ∈ t, 0 ≤ step.delta) (tick : Int) :
    (timedFrom tick t).Pairwise fun x y => x.1 ≤ y.1 := by
  induction t generalizing tick with
  | nil => exact .nil
  | cons step rest ih =>
    have hrest : ∀ step ∈ rest, 0 ≤ step.delta :=
      fun step h => hdelta step (List.mem_cons_of_mem _ h)
    exact List.pairwise_cons.mpr ⟨fun x hx => (mem_timedFrom hrest _ hx).1, ih hrest _⟩

/-- The notes of a track are those of the strokes of its keys, each ended by a rule. -/
structure Track.Paired (t : Track) (ends : Nat → Option Nat) : Prop where
  /-- The strokes are matched. -/
  matching : IsMatching t.timed ends
  /-- There is one note for each stroke. -/
  notes_perm : t.notes.Perm ((strokes t.timed).map (noteOf t.timed ends t.lastTick))
  /-- No message ends two strokes. -/
  injective : ∀ s ∈ strokes t.timed, ∀ s' ∈ strokes t.timed, ∀ place,
    ends s.place = some place → ends s'.place = some place → s = s'
  /-- Of two strokes of a key the earlier one ends first. -/
  ordered : ∀ s ∈ strokes t.timed, ∀ s' ∈ strokes t.timed, s.key = s'.key → s.place < s'.place →
    (noteOf t.timed ends t.lastTick s).stop ≤ (noteOf t.timed ends t.lastTick s').stop

/-- The notes of a track are paired, its time running forward. -/
lemma Track.exists_paired (t : Track) (hdelta : ∀ step ∈ t, 0 ≤ step.delta) :
    ∃ ends, t.Paired ends := by
  obtain ⟨ends, h⟩ := Pairing.exists_follows t.timed
  refine ⟨ends, h.matching, ?_, fun s hs s' hs' _ => h.matching.eq_of_ends_eq hs hs',
    fun s hs s' hs' => h.matching.stop_le_stop (pairwise_timedFrom hdelta 0) ?_ hs hs'⟩
  · exact (List.mergeSort_perm _ _).trans (h.finish t.lastTick)
  · exact fun x hx => (mem_timedFrom hdelta 0 hx).2

/-- The notes of a track come by start, and by key where they start together. -/
lemma Track.pairwise_notes (t : Track) : t.notes.Pairwise fun n n' =>
    n.start < n'.start ∨ n.start = n'.start ∧ n.note ≤ n'.note := by
  have hprecedes : ∀ n n' : TrackNote, n.precedes n' = true ↔
      n.start < n'.start ∨ n.start = n'.start ∧ n.note ≤ n'.note := by
    simp [TrackNote.precedes]
  refine (List.pairwise_mergeSort (fun n n' n'' => ?_) (fun n n' => ?_) _).imp
    fun h => (hprecedes _ _).mp h
  · simp only [hprecedes]
    omega
  · simp only [Bool.or_eq_true, hprecedes]
    omega

end PatternScore.Midi
