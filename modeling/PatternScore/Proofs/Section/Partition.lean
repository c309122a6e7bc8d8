import PatternScore.Proofs.Text.Decimal
import PatternScore.Section

/-!
# Sections partition a voice

The sections of a voice follow one another from its first bar to its last, none of them empty, and
no two of them have the same name. `Scan.Valid` is what the scan of the marks keeps: what is done so
far is such a partition of the bars before the section that is being read.
-/

namespace PatternScore.Section

open Text

/-! ## Consecutive sections -/

/-- The sections follow one another from the bar `start` to the bar before `stop`; none is empty. -/
def Consecutive : Int → Int → List Section → Prop
  | start, stop, [] => start = stop
  | start, stop, s :: rest => s.start = start ∧ s.start < s.stop ∧ Consecutive s.stop stop rest

/-- One more section behind consecutive ones. -/
lemma Consecutive.append_singleton {start : Int} {sections : List Section} {s : Section}
    (h : Consecutive start s.start sections) (hs : s.start < s.stop) :
    Consecutive start s.stop (sections ++ [s]) := by
  induction sections generalizing start with
  | nil => exact ⟨h.symm, hs, rfl⟩
  | cons t rest ih => exact ⟨h.1, h.2.1, ih h.2.2⟩

/-- Consecutive sections do not end before they begin. -/
lemma Consecutive.le {start stop : Int} {sections : List Section}
    (h : Consecutive start stop sections) : start ≤ stop := by
  induction sections generalizing start with
  | nil => exact le_of_eq h
  | cons t rest ih =>
    have := ih h.2.2
    have := h.1
    have := h.2.1
    omega

/-! ## Names -/

/-- The names that a section may get, at most `count` of them by number. -/
def IsName (count : Nat) (hasMain : Bool) (name : String) : Prop :=
  name = "intro" ∨ (name = "main" ∧ hasMain = true) ∨
    ∃ k, k ≤ count ∧ name = "section" ++ Text.nat k

/-- A name is one of more names as well. -/
lemma IsName.mono {count more : Nat} {hasMain hasMain' : Bool} {name : String}
    (h : IsName count hasMain name) (hcount : count ≤ more)
    (hmain : hasMain = true → hasMain' = true) : IsName more hasMain' name := by
  obtain h | ⟨h, hm⟩ | ⟨k, hk, h⟩ := h
  · exact .inl h
  · exact .inr (.inl ⟨h, hmain hm⟩)
  · exact .inr (.inr ⟨k, hk.trans hcount, h⟩)

/-- A numbered name begins with its own letter. -/
lemma numbered_ne (k : Nat) {name : String} (h : name.toList.head? ≠ some 's') :
    "section" ++ Text.nat k ≠ name := by
  rintro rfl
  rw [String.toList_append] at h
  exact h rfl

/-- The next number is not in use. -/
lemma IsName.ne_numbered {count : Nat} {hasMain : Bool} {name : String}
    (h : IsName count hasMain name) : name ≠ "section" ++ Text.nat (count + 1) := by
  obtain rfl | ⟨rfl, -⟩ | ⟨k, hk, rfl⟩ := h
  · exact (numbered_ne _ (by decide)).symm
  · exact (numbered_ne _ (by decide)).symm
  · intro heq
    have hlists := congrArg String.toList heq
    rw [String.toList_append, String.toList_append, List.append_cancel_left_eq,
      String.toList_inj] at hlists
    have := nat_injective hlists
    omega

/-- Without a main section its name is not in use. -/
lemma IsName.ne_main {count : Nat} {name : String} (h : IsName count false name) :
    name ≠ "main" := by
  obtain rfl | ⟨-, hm⟩ | ⟨k, -, rfl⟩ := h
  · decide
  · cases hm
  · exact numbered_ne _ (by decide)

/-- The names of the sections behind the last closing are not in use. -/
lemma IsName.ne_last {count : Nat} {hasMain : Bool} {name last : String}
    (h : IsName count hasMain name) (hlast : last = "coda" ∨ last = "outro") : name ≠ last := by
  have hhead : last.toList.head? ≠ some 's' := by
    obtain rfl | rfl := hlast <;> decide
  obtain rfl | ⟨rfl, -⟩ | ⟨k, -, rfl⟩ := h
  · obtain rfl | rfl := hlast <;> decide
  · obtain rfl | rfl := hlast <;> decide
  · exact numbered_ne k hhead

/-! ## The scan -/

/-- What is done partitions the bars before the section at hand, under different names. -/
structure Scan.Valid (s : Scan) (position : Nat) : Prop where
  /-- The sections that are done reach up to the one at hand. -/
  consecutive : Consecutive 0 s.start s.done
  /-- The section at hand begins at or before the bar that is read. -/
  start_le : s.start ≤ position
  /-- No name is given twice. -/
  nodup : (s.done.map (·.name)).Nodup
  /-- The names in use. -/
  isName : ∀ t ∈ s.done, IsName s.done.length s.main.isSome t.name

namespace Scan

/-- Before the first bar nothing is partitioned. -/
lemma valid_start : Valid {} 0 where
  consecutive := rfl
  start_le := le_rfl
  nodup := List.nodup_nil
  isName _ h := absurd h List.not_mem_nil

/-- The bars that are read may be more. -/
lemma Valid.mono {s : Scan} {position later : Nat} (h : s.Valid position)
    (hlater : position ≤ later) : s.Valid later :=
  { h with start_le := h.start_le.trans hlater }

/-- A section that ends joins those that are done. -/
lemma done_endAt (s : Scan) (name : String) (stop : Nat) :
    (s.endAt name stop).done = s.done ++ [⟨name, s.start, stop⟩] := rfl

/-- A section with a new name may end behind the bar at which it began. -/
lemma Valid.endAt {s : Scan} {position : Nat} (h : s.Valid position) {name : String} {stop : Nat}
    {main : Option Nat} (hstop : s.start < stop) (hnew : ∀ t ∈ s.done, t.name ≠ name)
    (hmain : s.main.isSome = true → main.isSome = true)
    (hname : IsName (s.done.length + 1) main.isSome name) :
    Valid { s.endAt name stop with main } stop := by
  refine ⟨?_, le_rfl, ?_, ?_⟩
  · have hnonempty : (⟨name, s.start, stop⟩ : Section).start < stop := Int.ofNat_lt.mpr hstop
    exact h.consecutive.append_singleton hnonempty
  · rw [done_endAt, List.map_append, List.nodup_append]
    refine ⟨h.nodup, List.nodup_singleton _, ?_⟩
    intro x hx y hy
    obtain ⟨t, ht, rfl⟩ := List.mem_map.mp hx
    obtain rfl : y = name := by simpa using hy
    exact hnew t ht
  · intro t ht
    simp only [done_endAt, List.length_append, List.length_singleton] at ht ⊢
    obtain ht | ht := List.mem_append.mp ht
    · exact (h.isName t ht).mono (Nat.le_succ _) hmain
    · rw [List.mem_singleton.mp ht]
      exact hname

/-- The next name is one by number. -/
lemma Valid.isName_nextName (s : Scan) (hasMain : Bool) :
    IsName (s.done.length + 1) hasMain s.nextName :=
  .inr (.inr ⟨_, le_rfl, rfl⟩)

/-- An opening ends the section at hand, if it has a bar. -/
lemma Valid.opening {s : Scan} {position : Nat} (h : s.Valid position) :
    (s.opening position).Valid position := by
  unfold Scan.opening
  split
  · rename_i hlt
    by_cases hdone : s.done = []
    · have hname : (if s.done.isEmpty then "intro" else s.nextName) = "intro" := by simp [hdone]
      rw [hname]
      refine h.endAt hlt ?_ id (.inl rfl)
      intro t ht
      simp [hdone] at ht
    · have hname : (if s.done.isEmpty then "intro" else s.nextName) = s.nextName := by
        simp [hdone]
      rw [hname]
      exact h.endAt hlt (fun t ht => (h.isName t ht).ne_numbered) id
        (Valid.isName_nextName s _)
  · exact h

/-- A closing ends the section at hand, with the bar that is read. -/
lemma Valid.closing {s : Scan} {position : Nat} (h : s.Valid position) :
    (s.closing position).Valid (position + 1) := by
  have hlt := Nat.lt_succ_of_le h.start_le
  unfold Scan.closing
  cases hmain : s.main with
  | some n =>
    have hnew : ∀ t ∈ s.done, t.name ≠ s.nextName := fun t ht => (h.isName t ht).ne_numbered
    exact h.endAt hlt hnew id (Valid.isName_nextName s _)
  | none =>
    have hnew : ∀ t ∈ s.done, t.name ≠ "main" := by
      intro t ht
      have := h.isName t ht
      rw [hmain] at this
      exact this.ne_main
    exact h.endAt hlt hnew (fun _ => rfl) (.inr (.inl ⟨rfl, rfl⟩))

/-- Reading one mark keeps the partition. -/
lemma Valid.step {s : Scan} {position : Nat} (h : s.Valid position) (mark : Option RepeatMark) :
    (s.step position mark).Valid (position + 1) := by
  have hopen : (if mark.any (·.isOpening) then s.opening position else s).Valid position := by
    split
    · exact h.opening
    · exact h
  unfold Scan.step
  generalize (if mark.any (·.isOpening) then s.opening position else s) = opened at hopen
  split
  · exact hopen.closing
  · exact hopen.mono (Nat.le_succ position)

/-- Reading all marks keeps the partition. -/
lemma Valid.run {s : Scan} {position : Nat} (h : s.Valid position)
    (marks : List (Option RepeatMark)) :
    (s.run position marks).Valid (position + marks.length) := by
  induction marks generalizing s position with
  | nil => exact h
  | cons mark rest ih =>
    have := ih (h.step mark)
    rwa [List.length_cons, Nat.add_comm rest.length 1, ← Nat.add_assoc]

end Scan

/-! ## Voices -/

/-- The name is that of some section. -/
def Named (name : String) : Prop :=
  (∃ count hasMain, IsName count hasMain name) ∨ name = "coda" ∨ name = "outro"

/-- The sections of a voice partition its bars and have different names. -/
lemma detect_partition {marks : List (Option RepeatMark)} {sections : List Section}
    (h : detect marks = some sections) :
    Consecutive 0 marks.length sections ∧ (sections.map (·.name)).Nodup ∧
      ∀ s ∈ sections, Named s.name := by
  have hvalid := Scan.valid_start.run marks
  rw [Nat.zero_add] at hvalid
  unfold detect Scan.finish at h
  generalize Scan.run {} 0 marks = scan at h hvalid
  cases hmain : scan.main with
  | none => simp [hmain] at h
  | some main =>
    rw [hmain] at h
    simp only at h
    split at h
    · rename_i hlt
      obtain rfl := Option.some.inj h
      have hlast : ∀ b : Bool, (if b then "coda" else "outro") = "coda" ∨
          (if b then "coda" else "outro") = "outro" := by decide
      have hname := hlast (decide (marks.length - scan.start < main))
      simp only [decide_eq_true_eq] at hname
      rw [Scan.done_endAt]
      generalize (if marks.length - scan.start < main then "coda" else "outro") = last at hname ⊢
      have hnonempty : (⟨last, scan.start, marks.length⟩ : Section).start < marks.length :=
        Int.ofNat_lt.mpr hlt
      refine ⟨hvalid.consecutive.append_singleton hnonempty, ?_, ?_⟩
      · rw [List.map_append, List.nodup_append]
        refine ⟨hvalid.nodup, List.nodup_singleton _, ?_⟩
        intro x hx y hy
        obtain ⟨t, ht, rfl⟩ := List.mem_map.mp hx
        rw [List.mem_singleton.mp hy]
        exact (hvalid.isName t ht).ne_last hname
      · intro s hs
        obtain hs | hs := List.mem_append.mp hs
        · exact .inl ⟨_, _, hvalid.isName s hs⟩
        · rw [List.mem_singleton.mp hs]
          exact .inr hname
    · rename_i hle
      obtain rfl := Option.some.inj h
      have hstart : scan.start = marks.length := le_antisymm hvalid.start_le (not_lt.mp hle)
      refine ⟨hstart ▸ hvalid.consecutive, hvalid.nodup, ?_⟩
      intro s hs
      exact .inl ⟨_, _, hvalid.isName s hs⟩

/-- Shared sections are the sections of every voice, and the voices have equally many bars. -/
lemma shared_eq_some_iff {first : List (Option RepeatMark)} {rest : List (List (Option RepeatMark))}
    {sections : List Section} :
    shared (first :: rest) = some sections ↔
      ∀ voice ∈ first :: rest, voice.length = first.length ∧ detect voice = some sections := by
  simp only [shared, List.all_eq_true, beq_iff_eq, List.forall_mem_cons, forall_and, true_and]
  by_cases hlength : ∀ voice ∈ rest, voice.length = first.length
  · rw [if_pos hlength]
    cases hfirst : detect first with
    | none => simp
    | some found =>
      by_cases hdetect : ∀ voice ∈ rest, detect voice = some found
      · simp only [if_pos hdetect, Option.some.injEq]
        refine ⟨?_, fun h => h.2.1⟩
        rintro rfl
        exact ⟨hlength, rfl, hdetect⟩
      · simp only [if_neg hdetect, Option.some.injEq]
        refine iff_of_false nofun ?_
        rintro ⟨-, rfl, h⟩
        exact hdetect h
  · rw [if_neg hlength]
    exact iff_of_false nofun fun h => hlength h.1

/-- Sections are shared only if all voices have the same number of bars and each has these
sections. -/
lemma detect_of_shared {voices : List (List (Option RepeatMark))} {sections : List Section}
    (h : shared voices = some sections) :
    ∃ count, ∀ marks ∈ voices, marks.length = count ∧ detect marks = some sections := by
  cases voices with
  | nil => cases h
  | cons first rest => exact ⟨first.length, shared_eq_some_iff.mp h⟩

/-- The first letter of a section's name. -/
lemma Named.head {name : String} (h : Named name) :
    name.toList.head? ∈ ['i', 'm', 's', 'c', 'o'].map some := by
  obtain ⟨count, hasMain, rfl | ⟨rfl, -⟩ | ⟨k, -, rfl⟩⟩ | rfl | rfl := h
  · decide
  · decide
  · rw [String.toList_append]
    show some 's' ∈ ['i', 'm', 's', 'c', 'o'].map some
    decide
  · decide
  · decide

/-- No name of a section holds an underscore. -/
lemma Named.underscore_notMem {name : String} (h : Named name) : '_' ∉ name.toList := by
  obtain ⟨count, hasMain, rfl | ⟨rfl, -⟩ | ⟨k, -, rfl⟩⟩ | rfl | rfl := h
  · decide
  · decide
  · rw [String.toList_append, List.mem_append, toList_nat]
    rintro (h | h)
    · exact absurd h (by decide)
    · exact absurd (mem_of_mem_intChars (show '_' ∈ intChars (.ofNat k) from h)) (by decide)
  · decide
  · decide

end PatternScore.Section
