import Mathlib.Order.Bounds.Basic
import PatternScore.Proofs.Section.Partition

/-!
# Sections follow the repeat signs

The sections of a voice can be told from its marks alone (`Sectioning`): they meet where a repeat
opens and behind the bars where one closes, and nowhere else, and each has its name by its place and
by what ends it. `Scan.Follows` is what the scan keeps of this, for the bars that are known so far
to open or to close a repeat. The two kinds are apart in it, since a bar that is a repeat on its own
is read in two steps. From it follow when there are sections, and when those of several voices are
shared (`detect_and_shared`).
-/

namespace PatternScore.Section

variable {start stop b : Int} {sections : List Section} {opens closes : Set Nat}
  {marks : List (Option RepeatMark)} {main : Option Section}

/-! ## Bounds of consecutive sections -/

namespace Consecutive

/-- No section ends behind the last bar. -/
lemma stop_le (h : Consecutive start stop sections) : ∀ s ∈ sections, s.stop ≤ stop := by
  induction sections generalizing start with
  | nil => exact fun _ hs => absurd hs List.not_mem_nil
  | cons t rest ih =>
    rintro s (_ | ⟨_, hs⟩)
    · exact h.2.2.le
    · exact ih h.2.2 s hs

/-- If there are bars, one section ends with the last. -/
lemma exists_stop (h : Consecutive start stop sections) (hlt : start < stop) :
    ∃ s ∈ sections, s.stop = stop := by
  induction sections generalizing start with
  | nil => exact absurd h hlt.ne
  | cons t rest ih =>
    obtain hrest | hrest := h.2.2.le.eq_or_lt
    · exact ⟨t, List.mem_cons_self, hrest⟩
    · obtain ⟨s, hs, hstop⟩ := ih h.2.2 hrest
      exact ⟨s, List.mem_cons_of_mem t hs, hstop⟩

/-- The bounds of the sections are the first bar and where a section ends. -/
lemma exists_bound_iff (h : Consecutive start stop sections) (hne : sections ≠ []) :
    (∃ s ∈ sections, b = s.start ∨ b = s.stop) ↔ b = start ∨ ∃ s ∈ sections, s.stop = b := by
  induction sections generalizing start with
  | nil => exact absurd rfl hne
  | cons t rest ih =>
    obtain ⟨rfl, -, hrest⟩ := h
    by_cases hnil : rest = []
    · simp [hnil, eq_comm]
    · have hbound := ih hrest hnil
      simp only [List.exists_mem_cons_iff, hbound, eq_comm (a := t.stop)]
      tauto

end Consecutive

/-! ## What the marks tell -/

/-- The bar `p` has a mark of the given kind. -/
def hasMark (kind : RepeatMark → Bool) (marks : List (Option RepeatMark)) (p : Nat) : Bool :=
  marks[p]?.join.any kind

/-- The bars at which a repeat opens. -/
def openings (marks : List (Option RepeatMark)) : Set Nat :=
  {p | hasMark (·.isOpening) marks p}

/-- The bars with which a repeat closes. -/
def closings (marks : List (Option RepeatMark)) : Set Nat :=
  {p | hasMark (·.isClosing) marks p}

/-- Sections meet before a bar that opens a repeat and behind one that closes a repeat. -/
def IsBoundary (opens closes : Set Nat) (b : Int) : Prop :=
  (∃ p ∈ opens, b = (p : Nat)) ∨ ∃ p ∈ closes, b = (p : Nat) + 1

/-- The section ends with the first bar that closes a repeat. -/
def EndsFirst (closes : Set Nat) (s : Section) : Prop :=
  ∃ first, IsLeast closes first ∧ s.stop = (first : Nat) + 1

/-- The name of the section at the place `i`, counted from zero. -/
def nameAt (marks : List (Option RepeatMark)) (main : Section) (i : Nat) (s : Section) : String :=
  if s = main then "main"
  else if i = 0 ∧ hasMark (·.isOpening) marks s.stop.toNat then "intro"
  else if s.stop = marks.length ∧ hasMark (·.isClosing) marks (marks.length - 1) = false then
    if s.length < main.length then "coda" else "outro"
  else "section" ++ Text.nat (i + 1)

/-- What the sections of a voice are, by its marks. -/
structure Sectioning (marks : List (Option RepeatMark)) (sections : List Section) : Prop where
  /-- They follow one another from the first bar to the last, and none is empty. -/
  consecutive : Consecutive 0 marks.length sections
  /-- They meet at the repeat signs, and nowhere else. -/
  bound_iff (b : Int) : (∃ s ∈ sections, b = s.start ∨ b = s.stop) ↔
    b = 0 ∨ b = marks.length ∨
      IsBoundary (openings marks) (closings marks) b
  /-- No two have the same name. -/
  nodup : (sections.map (·.name)).Nodup
  /-- The main section ends with the first closing, and it gives the others their names. -/
  exists_main : ∃ main ∈ sections, EndsFirst (closings marks) main ∧
    (∀ s ∈ sections, s.name = "main" ↔ s = main) ∧
    ∀ i s, sections[i]? = some s → s.name = nameAt marks main i s

/-- One more bar that opens a repeat is a boundary at its start. -/
lemma isBoundary_insert_opens {position : Nat} :
    IsBoundary (insert position opens) closes b ↔ b = position ∨ IsBoundary opens closes b := by
  simp only [IsBoundary, Set.exists_mem_insert, or_assoc]

/-- One more bar that closes a repeat is a boundary at its end. -/
lemma isBoundary_insert_closes {position : Nat} :
    IsBoundary opens (insert position closes) b ↔
      b = position + 1 ∨ IsBoundary opens closes b := by
  simp only [IsBoundary, Set.exists_mem_insert, or_left_comm]

/-- No boundary lies before the first bar. -/
lemma IsBoundary.nonneg (h : IsBoundary opens closes b) : 0 ≤ b := by
  obtain ⟨p, -, rfl⟩ | ⟨p, -, rfl⟩ := h <;> omega

/-- Later closings do not change which section ends with the first one. -/
lemma EndsFirst.insert {s : Section} {position : Nat} (h : EndsFirst closes s)
    (hlast : s.stop ≤ position) : EndsFirst (insert position closes) s := by
  obtain ⟨first, hfirst, hstop⟩ := h
  refine ⟨first, ⟨Set.mem_insert_of_mem _ hfirst.1, ?_⟩, hstop⟩
  rintro p (rfl | hp)
  · omega
  · exact hfirst.2 hp

/-- Without bars there are no marks. -/
lemma setOf_hasMark_nil (kind : RepeatMark → Bool) : {p | hasMark kind [] p} = ∅ := by
  simp [hasMark]

/-- The bars with a mark of some kind, when one more bar is known. -/
lemma setOf_hasMark_append_singleton (kind : RepeatMark → Bool) (mark : Option RepeatMark) :
    {p | hasMark kind (marks ++ [mark]) p} =
      if mark.any kind then insert marks.length {p | hasMark kind marks p}
      else {p | hasMark kind marks p} := by
  ext p
  obtain hp | rfl | hp := lt_trichotomy p marks.length
  · split <;> simp [hasMark, List.getElem?_append_left hp, hp.ne]
  · split <;> simp_all [hasMark]
  · have hlength : (marks ++ [mark]).length ≤ p := by simpa using hp
    split <;> simp [hasMark, List.getElem?_eq_none hlength, List.getElem?_eq_none hp.le, hp.ne']

/-- A mark is that of a bar. -/
lemma lt_of_hasMark {kind : RepeatMark → Bool} {p : Nat} (h : hasMark kind marks p) :
    p < marks.length := by
  by_contra hp
  simp [hasMark, List.getElem?_eq_none (not_lt.mp hp)] at h

/-- A repeat sign bounds the last bar from behind if that bar closes a repeat. -/
lemma isBoundary_length_iff :
    IsBoundary (openings marks) (closings marks)
      marks.length ↔ hasMark (·.isClosing) marks (marks.length - 1) := by
  constructor
  · rintro (⟨p, hp, heq⟩ | ⟨p, hp, heq⟩)
    · have := lt_of_hasMark hp
      omega
    · have hlast : p = marks.length - 1 := by omega
      exact hlast ▸ hp
  · intro hlast
    have := lt_of_hasMark hlast
    exact .inr ⟨_, hlast, by omega⟩

/-! ## What the scan keeps -/

namespace Scan

/-- The name of a section that the marks have ended. -/
def endedName (main : Option Section) (i : Nat) (s : Section) : String :=
  if main = some s then "main" else if i = 0 then "intro" else "section" ++ Text.nat (i + 1)

/-- What is done follows the bars that are known to open or to close a repeat. -/
structure Follows (s : Scan) (position : Nat) (opens closes : Set Nat) (main : Option Section) :
    Prop where
  /-- What is done is a partition. -/
  valid : s.Valid position
  /-- Sections end at the boundaries that are known. -/
  stop_iff (b : Int) : (∃ t ∈ s.done, t.stop = b) ↔ 0 < b ∧ IsBoundary opens closes b
  /-- The length of the main section is kept. -/
  length_eq : s.main.map Int.ofNat = main.map length
  /-- Without a main section no repeat was closed. -/
  closes_eq : main = none → closes = ∅
  /-- The main section is done, and the first closing ends it. -/
  endsFirst : ∀ m, main = some m → m ∈ s.done ∧ EndsFirst closes m
  /-- The sections that are done have their names. -/
  name_eq : ∀ i t, s.done[i]? = some t → t.name = endedName main i t
  /-- The first section is the main one, or an opening ends it. -/
  opened : ∀ t, s.done[0]? = some t → main = some t ∨ ∃ p ∈ opens, t.stop = (p : Nat)

/-- Before the first bar nothing is done and no mark is known. -/
lemma follows_start : Follows {} 0 ∅ ∅ none where
  valid := valid_start
  stop_iff b := by simp [IsBoundary]
  length_eq := rfl
  closes_eq _ := rfl
  endsFirst _ h := nomatch h
  name_eq _ _ h := nomatch h
  opened _ h := nomatch h

variable {s : Scan} {position : Nat}

/-- An entry of a list with one more entry at its end. -/
lemma getElem?_done_endAt {name : String} {bar i : Nat} {t : Section}
    (h : (s.endAt name bar).done[i]? = some t) :
    s.done[i]? = some t ∨ i = s.done.length ∧ t = ⟨name, s.start, bar⟩ := by
  rw [done_endAt, List.getElem?_append] at h
  split at h
  · exact .inl h
  · rw [List.getElem?_singleton] at h
    split at h
    · exact .inr ⟨by omega, (Option.some.inj h).symm⟩
    · cases h

namespace Follows

/-- What is done ends before the section at hand. -/
lemma stop_le (h : s.Follows position opens closes main) : ∀ t ∈ s.done, t.stop ≤ s.start :=
  h.valid.consecutive.stop_le

/-- If the first bar is done, a section ends before the one at hand. -/
lemma exists_stop (h : s.Follows position opens closes main) (hlt : 0 < s.start) :
    ∃ t ∈ s.done, t.stop = s.start :=
  h.valid.consecutive.exists_stop (Int.natCast_pos.mpr hlt)

/-- The section at hand ends before the bar `bar`, with the bars that are known from then on. -/
lemma stop_iff_endAt (h : s.Follows position opens closes main) {opens' closes' : Set Nat}
    {name : String} {bar : Nat} (hbar : s.start < bar)
    (hboundary : ∀ b, IsBoundary opens' closes' b ↔ b = bar ∨ IsBoundary opens closes b) (b : Int) :
    (∃ t ∈ (s.endAt name bar).done, t.stop = b) ↔ 0 < b ∧ IsBoundary opens' closes' b := by
  have hnew : (∃ t ∈ (s.endAt name bar).done, t.stop = b) ↔
      (∃ t ∈ s.done, t.stop = b) ∨ b = bar := by
    simp only [done_endAt, List.mem_append, List.mem_singleton, or_and_right, exists_or,
      exists_eq_left, eq_comm]
  have hpos : b = bar → 0 < b := by omega
  rw [hnew, h.stop_iff, hboundary]
  tauto

/-- The main section stays what it is while others end. -/
lemma main_ne (h : s.Follows position opens closes main) {name : String} {bar : Nat}
    (hbar : s.start < bar) : main ≠ some ⟨name, s.start, bar⟩ := by
  intro hmain
  have hstop := h.stop_le _ (h.endsFirst _ hmain).1
  have : (bar : Int) ≤ s.start := hstop
  omega

/-- A section that is not the main one ends. -/
lemma endAt (h : s.Follows position opens closes main) {opens' closes' : Set Nat} {name : String}
    {bar position' : Nat} (hvalid : (s.endAt name bar).Valid position') (hbar : s.start < bar)
    (hboundary : ∀ b, IsBoundary opens' closes' b ↔ b = bar ∨ IsBoundary opens closes b)
    (hcloses : main = none → closes' = ∅)
    (hfirst : ∀ t : Section, t.stop ≤ s.start → EndsFirst closes t → EndsFirst closes' t)
    (hname : name = if s.done.isEmpty then "intro" else s.nextName)
    (hopens : opens ⊆ opens') (hopened : s.done = [] → bar ∈ opens') :
    (s.endAt name bar).Follows position' opens' closes' main where
  valid := hvalid
  stop_iff := h.stop_iff_endAt hbar hboundary
  length_eq := h.length_eq
  closes_eq := hcloses
  endsFirst m hm := by
    obtain ⟨hmem, hends⟩ := h.endsFirst m hm
    exact ⟨List.mem_append_left _ hmem, hfirst m (h.stop_le m hmem) hends⟩
  name_eq i t ht := by
    obtain ht | ⟨rfl, rfl⟩ := getElem?_done_endAt ht
    · exact h.name_eq i t ht
    · simp only [List.isEmpty_iff_length_eq_zero] at hname
      rw [endedName, if_neg (h.main_ne hbar)]
      exact hname
  opened t ht := by
    obtain ht | ⟨hlength, rfl⟩ := getElem?_done_endAt ht
    · exact (h.opened t ht).imp_right fun ⟨p, hp, hstop⟩ => ⟨p, hopens hp, hstop⟩
    · exact .inr ⟨bar, hopened (List.length_eq_zero_iff.mp hlength.symm), rfl⟩

/-- A bar at which a repeat opens is read. -/
lemma opening (h : s.Follows position opens closes main) :
    (s.opening position).Follows position (insert position opens) closes main := by
  have hvalid := h.valid.opening
  unfold Scan.opening at hvalid ⊢
  split at hvalid
  · rename_i hlt
    rw [if_pos hlt]
    exact h.endAt hvalid hlt (fun _ => isBoundary_insert_opens) h.closes_eq (fun _ _ => id) rfl
      (Set.subset_insert _ _) fun _ => Set.mem_insert _ _
  · rename_i hle
    rw [if_neg hle]
    -- The bar begins the section at hand, so that the one before it, if any, ends there already.
    have hstart : s.start = position := le_antisymm h.valid.start_le (not_lt.mp hle)
    have hbounded : (0 : Int) < position → IsBoundary opens closes position := by
      intro hpos
      obtain ⟨t, ht, hstop⟩ := h.exists_stop (hstart ▸ Int.natCast_pos.mp hpos)
      exact ((h.stop_iff position).mp ⟨t, ht, hstart ▸ hstop⟩).2
    refine { h with stop_iff := fun b => ?_, opened := fun t ht => ?_ }
    · rw [h.stop_iff, isBoundary_insert_opens, and_congr_right_iff]
      intro hpos
      refine ⟨.inr, ?_⟩
      rintro (rfl | hb)
      · exact hbounded hpos
      · exact hb
    · exact (h.opened t ht).imp_right fun ⟨p, hp, hstop⟩ => ⟨p, Set.mem_insert_of_mem _ hp, hstop⟩

/-- The first bar that closes a repeat ends the main section. -/
lemma closing_first (h : s.Follows position opens closes none) :
    (s.closing position).Follows (position + 1) opens (insert position closes)
      (some ⟨"main", s.start, (position + 1 : Nat)⟩) := by
  have hvalid := h.valid.closing
  have hbar : s.start < position + 1 := Nat.lt_succ_of_le h.valid.start_le
  have hnone : s.main = none := by simpa using h.length_eq
  have hclosing : s.closing position =
      { s.endAt "main" (position + 1) with main := some (position + 1 - s.start) } := by
    rw [Scan.closing, hnone]
  rw [hclosing] at hvalid ⊢
  have hne : ∀ t ∈ s.done, (⟨"main", s.start, (position + 1 : Nat)⟩ : Section) ≠ t := by
    rintro _ ht rfl
    have : ((position + 1 : Nat) : Int) ≤ s.start := h.stop_le _ ht
    omega
  refine ⟨hvalid, h.stop_iff_endAt hbar fun _ => isBoundary_insert_closes, ?_, nofun, ?_, ?_, ?_⟩
  · exact congrArg some (Nat.cast_sub hbar.le)
  · rintro _ ⟨⟩
    refine ⟨List.mem_append_right _ (List.mem_singleton_self _), position, ?_, by push_cast; rfl⟩
    rw [h.closes_eq rfl, insert_empty_eq]
    exact isLeast_singleton
  · intro i t ht
    obtain ht | ⟨-, rfl⟩ := getElem?_done_endAt ht
    · have hname := h.name_eq i t ht
      rw [endedName, if_neg nofun] at hname
      rw [endedName, if_neg (mt Option.some.inj (hne t (List.mem_of_getElem? ht)))]
      exact hname
    · exact (if_pos rfl).symm
  · intro t ht
    obtain ht | ⟨-, rfl⟩ := getElem?_done_endAt ht
    · exact .inr ((h.opened t ht).resolve_left nofun)
    · exact .inl rfl

/-- A later bar that closes a repeat ends a section that is named by its place. -/
lemma closing_later {m : Section} (h : s.Follows position opens closes (some m)) :
    (s.closing position).Follows (position + 1) opens (insert position closes) (some m) := by
  have hvalid := h.valid.closing
  have hbar : s.start < position + 1 := Nat.lt_succ_of_le h.valid.start_le
  have hdone : s.done ≠ [] := List.ne_nil_of_mem (h.endsFirst m rfl).1
  obtain ⟨size, hsize, -⟩ := Option.map_eq_some_iff.mp h.length_eq
  have hclosing : s.closing position = s.endAt s.nextName (position + 1) := by
    rw [Scan.closing, hsize]
  rw [hclosing] at hvalid ⊢
  refine h.endAt hvalid hbar (fun _ => isBoundary_insert_closes) nofun (fun t ht hends => ?_)
    (if_neg (mt List.isEmpty_iff.mp hdone)).symm subset_rfl fun hnil => absurd hnil hdone
  exact hends.insert (ht.trans (Int.ofNat_le.mpr h.valid.start_le))

/-- A bar that closes a repeat is read. -/
lemma closing (h : s.Follows position opens closes main) :
    ∃ main, (s.closing position).Follows (position + 1) opens (insert position closes) main := by
  cases main with
  | none => exact ⟨_, h.closing_first⟩
  | some m => exact ⟨_, h.closing_later⟩

/-- The mark of the bar `position` is read. -/
lemma step (h : s.Follows position opens closes main) (mark : Option RepeatMark) :
    ∃ main, (s.step position mark).Follows (position + 1)
      (if mark.any (·.isOpening) then insert position opens else opens)
      (if mark.any (·.isClosing) then insert position closes else closes) main := by
  have hopened : (if mark.any (·.isOpening) then s.opening position else s).Follows position
      (if mark.any (·.isOpening) then insert position opens else opens) closes main := by
    split
    · exact h.opening
    · exact h
  unfold Scan.step
  generalize (if mark.any (·.isOpening) then s.opening position else s) = opened at hopened
  split
  · exact hopened.closing
  · exact ⟨main, { hopened with valid := hopened.valid.mono (Nat.le_succ position) }⟩

end Follows

/-- The marks of a voice are read one after another. -/
lemma run_append_singleton (position : Nat) (marks : List (Option RepeatMark))
    (mark : Option RepeatMark) :
    s.run position (marks ++ [mark]) =
      (s.run position marks).step (position + marks.length) mark := by
  induction marks generalizing s position with
  | nil => rfl
  | cons first rest ih =>
    rw [List.cons_append, run, ih, run, List.length_cons, Nat.add_assoc, Nat.add_comm 1]

/-- All marks are read. -/
lemma follows_run (marks : List (Option RepeatMark)) :
    ∃ main, (run {} 0 marks).Follows marks.length (openings marks) (closings marks) main := by
  induction marks using List.reverseRecOn with
  | nil =>
    rw [openings, closings, setOf_hasMark_nil, setOf_hasMark_nil]
    exact ⟨none, follows_start⟩
  | append_singleton marks mark ih =>
    obtain ⟨main, hmain⟩ := ih
    rw [run_append_singleton, Nat.zero_add, List.length_append, List.length_singleton, openings,
      closings, setOf_hasMark_append_singleton, setOf_hasMark_append_singleton]
    exact hmain.step mark

end Scan

/-! ## The sections of a voice -/

section finish

variable {s : Scan} {m : Section}
  (h : s.Follows marks.length (openings marks) (closings marks) (some m))

include h

/-- A section that a mark has ended has its name. -/
lemma Scan.Follows.name_eq_nameAt {i : Nat} {t : Section} (ht : s.done[i]? = some t) :
    t.name = nameAt marks m i t := by
  rw [h.name_eq i t ht, endedName, nameAt]
  by_cases hmain : t = m
  · simp [hmain]
  · rw [if_neg hmain, if_neg (mt (fun heq => (Option.some.inj heq).symm) hmain)]
    by_cases hi : i = 0
    · subst hi
      obtain hfirst | ⟨p, hp, hstop⟩ := h.opened t ht
      · exact absurd (Option.some.inj hfirst).symm hmain
      · rw [if_pos rfl, if_pos ⟨rfl, by rwa [hstop, Int.toNat_natCast]⟩]
    · have hlast : ¬ (t.stop = marks.length ∧
          hasMark (·.isClosing) marks (marks.length - 1) = false) := by
        rintro ⟨hstop, hopen⟩
        have hbound := (h.stop_iff marks.length).mp ⟨t, List.mem_of_getElem? ht, hstop⟩
        rw [isBoundary_length_iff.mp hbound.2] at hopen
        cases hopen
      rw [if_neg hi, if_neg (fun hand => hi hand.1), if_neg hlast]

/-- What follows the last repeat has its name. -/
lemma Scan.Follows.last_eq_nameAt {size : Nat} (hsize : s.main = some size)
    (hlt : s.start < marks.length) {last : Section}
    (hlast : last = ⟨if marks.length - s.start < size then "coda" else "outro", s.start,
      marks.length⟩) : last.name = nameAt marks m s.done.length last := by
  have hmain : last ≠ m := fun heq => h.main_ne hlt (congrArg some (hlast ▸ heq.symm))
  have hdone : s.done.length ≠ 0 :=
    (List.length_pos_of_mem (h.endsFirst m rfl).1).ne'
  have hopen : hasMark (·.isClosing) marks (marks.length - 1) = false := by
    rw [Bool.eq_false_iff]
    intro hclosing
    obtain ⟨t, ht, hstop⟩ := (h.stop_iff marks.length).mpr
      ⟨by omega, isBoundary_length_iff.mpr hclosing⟩
    have := h.stop_le t ht
    omega
  have hlength : m.length = size := by
    have hkept := h.length_eq
    rw [hsize] at hkept
    exact (Option.some.inj hkept).symm
  have hshorter : last.length < m.length ↔ marks.length - s.start < size := by
    rw [hlength, hlast]
    simp only [length]
    omega
  rw [nameAt, if_neg hmain, if_neg (fun hand => hdone hand.1), if_pos ⟨by rw [hlast], hopen⟩]
  simp only [hshorter]
  rw [hlast]

/-- With what follows the last repeat, the sections end at the known boundaries and with the last
bar, and all have their names. -/
lemma Scan.Follows.finish (hfinish : s.finish marks.length = some sections) :
    m ∈ sections ∧
      (∀ b, (∃ t ∈ sections, t.stop = b) ↔ b = marks.length ∨
        0 < b ∧ IsBoundary (openings marks) (closings marks) b) ∧
      ∀ i t, sections[i]? = some t → t.name = nameAt marks m i t := by
  obtain ⟨size, hsize, -⟩ := Option.map_eq_some_iff.mp h.length_eq
  have hmem : m ∈ s.done := (h.endsFirst m rfl).1
  rw [Scan.finish, hsize] at hfinish
  simp only at hfinish
  split at hfinish
  · rename_i hlt
    obtain rfl := Option.some.inj hfinish
    refine ⟨List.mem_append_left _ hmem, fun b => ?_, fun i t ht => ?_⟩
    · rw [← h.stop_iff, done_endAt]
      simp only [List.mem_append, List.mem_singleton, or_and_right, exists_or, exists_eq_left,
        eq_comm (a := b), or_comm]
    · obtain ht | ⟨rfl, hlast⟩ := getElem?_done_endAt ht
      · exact h.name_eq_nameAt ht
      · exact h.last_eq_nameAt hsize hlt hlast
  · rename_i hle
    obtain rfl := Option.some.inj hfinish
    have hstart : s.start = marks.length := le_antisymm h.valid.start_le (not_lt.mp hle)
    refine ⟨hmem, fun b => ?_, fun i t ht => h.name_eq_nameAt ht⟩
    have hpos : 0 < m.stop := ((h.stop_iff _).mp ⟨m, hmem, rfl⟩).1
    have hle := h.stop_le m hmem
    obtain ⟨t, ht, hstop⟩ := h.exists_stop (Int.natCast_pos.mp (hpos.trans_le hle))
    rw [h.stop_iff, iff_or_self]
    rintro rfl
    exact (h.stop_iff _).mp ⟨t, ht, hstart ▸ hstop⟩

end finish

/-- There are no sections just if no repeat is closed. -/
lemma detect_eq_none_iff : detect marks = none ↔ closings marks = ∅ := by
  obtain ⟨main, h⟩ := Scan.follows_run marks
  unfold detect Scan.finish
  generalize Scan.run {} 0 marks = scan at h
  cases main with
  | none =>
    have hnone : scan.main = none := by simpa using h.length_eq
    simpa [hnone] using h.closes_eq rfl
  | some m =>
    obtain ⟨size, hsize, -⟩ := Option.map_eq_some_iff.mp h.length_eq
    obtain ⟨-, first, hfirst, -⟩ := h.endsFirst m rfl
    rw [hsize]
    refine iff_of_false ?_ (Set.nonempty_iff_ne_empty.mp ⟨first, hfirst.1⟩)
    simp only
    split <;> nofun

/-- The sections of a voice are what its marks tell. -/
lemma sectioning_of_detect (hdetect : detect marks = some sections) :
    Sectioning marks sections := by
  obtain ⟨hconsecutive, hnodup, -⟩ := detect_partition hdetect
  obtain ⟨main, h⟩ := Scan.follows_run marks
  cases main with
  | none =>
    rw [detect_eq_none_iff.mpr (h.closes_eq rfl)] at hdetect
    cases hdetect
  | some m =>
    obtain ⟨hmem, hstop, hname⟩ := h.finish hdetect
    have hmain : m.name = "main" := by
      obtain ⟨i, hi⟩ := List.mem_iff_getElem?.mp hmem
      rw [hname i m hi, nameAt, if_pos rfl]
    refine ⟨hconsecutive, fun b => ?_, hnodup, m, hmem, (h.endsFirst m rfl).2, fun s hs => ?_,
      hname⟩
    · rw [hconsecutive.exists_bound_iff (List.ne_nil_of_mem hmem), hstop]
      have hnonneg := fun hb : IsBoundary (openings marks) (closings marks) b => hb.nonneg
      have hzero : 0 ≤ b ↔ b = 0 ∨ 0 < b := by omega
      tauto
    · refine ⟨fun hs' => ?_, fun heq => heq ▸ hmain⟩
      exact List.inj_on_of_nodup_map hnodup hs hmem (hs'.trans hmain.symm)

/-- There are sections just if a repeat is closed. They follow one another from the first bar to the
last, they meet at the repeat signs and nowhere else, and their names are different: the one that
the first closing ends is the main section, and the others are named by their place and by what ends
them. Voices share sections just if all have the same number of bars and the same sections. -/
theorem detect_and_shared (marks : List (Option RepeatMark))
    (rest : List (List (Option RepeatMark))) :
    (detect marks = none ↔ closings marks = ∅) ∧
      (∀ sections, detect marks = some sections → Sectioning marks sections) ∧
      ∀ sections, shared (marks :: rest) = some sections ↔
        ∀ voice ∈ marks :: rest, voice.length = marks.length ∧ detect voice = some sections :=
  ⟨detect_eq_none_iff, fun _ => sectioning_of_detect, fun _ => shared_eq_some_iff⟩

/-- A voice with an upbeat section, two repeats and two bars behind them. -/
def twoRepeats : List (Option RepeatMark) :=
  [none, some .opens, none, some .closes, some .both, none, none]

/-- The first closing makes the main section of its repeat, and what follows the second repeat is
shorter than that, so it is the coda. -/
theorem detect_and_shared_twoRepeats :
    detect twoRepeats =
        some [⟨"intro", 0, 1⟩, ⟨"main", 1, 4⟩, ⟨"section3", 4, 5⟩, ⟨"coda", 5, 7⟩] ∧
      Sectioning twoRepeats
        [⟨"intro", 0, 1⟩, ⟨"main", 1, 4⟩, ⟨"section3", 4, 5⟩, ⟨"coda", 5, 7⟩] ∧
      shared [twoRepeats, twoRepeats] = detect twoRepeats := by
  have hdetect : detect twoRepeats =
      some [⟨"intro", 0, 1⟩, ⟨"main", 1, 4⟩, ⟨"section3", 4, 5⟩, ⟨"coda", 5, 7⟩] := by
    decide +kernel
  obtain ⟨-, hsectioning, hshared⟩ := detect_and_shared twoRepeats [twoRepeats]
  refine ⟨hdetect, hsectioning _ hdetect, ?_⟩
  rw [hdetect, hshared]
  simp [hdetect]

end PatternScore.Section
