import Mathlib.Tactic

/-!
# Things that follow each other without gaps

A list of things that begin and end tiles the time from one instant to another if each begins where
the one before it ends. This is said of the spans of a bar, of the notes and rests of a staff and of
the tokens that are played, so it is stated for any of them, in any linearly ordered time.
-/

namespace PatternScore

variable {α τ : Type} [LinearOrder τ] {start stop : α → τ} {a b c time : τ} {l m : List α} {x : α}

/-- The things follow each other without gaps from `a` to `b`, and each of them lasts. -/
def Tiles (start stop : α → τ) : τ → List α → τ → Prop
  | a, [], b => a = b
  | a, x :: rest, b => start x = a ∧ start x < stop x ∧ Tiles start stop (stop x) rest b

namespace Tiles

/-- What goes on without gaps where other things end goes on behind them. -/
lemma append (hl : Tiles start stop a l b) (hm : Tiles start stop b m c) :
    Tiles start stop a (l ++ m) c := by
  induction l generalizing a with
  | nil =>
    obtain rfl : a = b := hl
    exact hm
  | cons x rest ih =>
    obtain ⟨hstart, hlt, hrest⟩ := hl
    exact ⟨hstart, hlt, ih hrest⟩

/-- The last one begins where the others end. -/
lemma concat_iff : Tiles start stop a (l ++ [x]) b ↔
    Tiles start stop a l (start x) ∧ start x < stop x ∧ stop x = b := by
  induction l generalizing a with
  | nil => exact and_congr_left' eq_comm
  | cons y rest ih =>
    rw [List.cons_append, Tiles, Tiles, ih, and_assoc, and_assoc]

/-- The end is not before the start. -/
lemma le (h : Tiles start stop a l b) : a ≤ b := by
  induction l generalizing a with
  | nil => exact h.le
  | cons x rest ih =>
    obtain ⟨hstart, hlt, hrest⟩ := h
    exact (hstart ▸ hlt.le).trans (ih hrest)

/-- Nothing lasts from an instant to itself. -/
lemma eq_nil (h : Tiles start stop a l a) : l = [] := by
  cases l with
  | nil => rfl
  | cons x rest =>
    obtain ⟨rfl, hlt, hrest⟩ := h
    exact absurd hrest.le (not_le.mpr hlt)

/-- Each of them begins, lasts and ends in between. -/
lemma mem (h : Tiles start stop a l b) (hx : x ∈ l) :
    a ≤ start x ∧ start x < stop x ∧ stop x ≤ b := by
  induction l generalizing a with
  | nil => cases hx
  | cons y rest ih =>
    obtain ⟨hstart, hlt, hrest⟩ := h
    rcases List.mem_cons.mp hx with rfl | hx
    · exact ⟨hstart.ge, hlt, hrest.le⟩
    · obtain ⟨hbegin, hlasts, hend⟩ := ih hrest hx
      exact ⟨(hstart ▸ hlt.le).trans hbegin, hlasts, hend⟩

/-- None of them overlaps a later one. -/
lemma pairwise (h : Tiles start stop a l b) : l.Pairwise fun x y => stop x ≤ start y := by
  induction l generalizing a with
  | nil => exact List.Pairwise.nil
  | cons x rest ih =>
    obtain ⟨-, -, hrest⟩ := h
    exact List.pairwise_cons.mpr ⟨fun y hy => (hrest.mem hy).1, ih hrest⟩

/-- Every instant in between belongs to one of them. -/
lemma exists_mem (h : Tiles start stop a l b) (ha : a ≤ time) (hb : time < b) :
    ∃ x ∈ l, start x ≤ time ∧ time < stop x := by
  induction l generalizing a with
  | nil => exact absurd (ha.trans_lt hb) h.not_lt
  | cons x rest ih =>
    obtain ⟨hstart, hlt, hrest⟩ := h
    by_cases hx : time < stop x
    · exact ⟨x, List.mem_cons_self, hstart.trans_le ha, hx⟩
    · obtain ⟨y, hy, hin⟩ := ih hrest (not_lt.mp hx)
      exact ⟨y, List.mem_cons_of_mem _ hy, hin⟩

/-- One of them ends at the end. -/
lemma exists_stop_eq (h : Tiles start stop a l b) (hne : l ≠ []) : ∃ x ∈ l, stop x = b := by
  induction l generalizing a with
  | nil => exact absurd rfl hne
  | cons x rest ih =>
    obtain ⟨-, -, hrest⟩ := h
    cases rest with
    | nil => exact ⟨x, List.mem_cons_self, hrest⟩
    | cons y rest =>
      obtain ⟨z, hz, heq⟩ := ih hrest (List.cons_ne_nil _ _)
      exact ⟨z, List.mem_cons_of_mem _ hz, heq⟩

/-- No instant belongs to two of them. -/
lemma eq_of_mem (h : Tiles start stop a l b) {y : α} (hx : x ∈ l) (hy : y ∈ l)
    (hxin : start x ≤ time ∧ time < stop x) (hyin : start y ≤ time ∧ time < stop y) : x = y := by
  induction l generalizing a with
  | nil => cases hx
  | cons z rest ih =>
    obtain ⟨hstart, hlt, hrest⟩ := h
    rcases List.mem_cons.mp hx with rfl | hx'
    · rcases List.mem_cons.mp hy with rfl | hy'
      · rfl
      · exact absurd (hxin.2.trans_le ((hrest.mem hy').1.trans hyin.1)) (lt_irrefl _)
    · rcases List.mem_cons.mp hy with rfl | hy'
      · exact absurd (hyin.2.trans_le ((hrest.mem hx').1.trans hxin.1)) (lt_irrefl _)
      · exact ih hrest hx' hy'

/-- Things that do not overlap and to which exactly the instants in between belong follow each other
without gaps. -/
lemma of_covers (hab : a ≤ b) (hlasting : ∀ x ∈ l, start x < stop x)
    (hordered : l.Pairwise fun x y => stop x ≤ start y)
    (hcovers : ∀ time, (∃ x ∈ l, start x ≤ time ∧ time < stop x) ↔ a ≤ time ∧ time < b) :
    Tiles start stop a l b := by
  induction l generalizing a with
  | nil =>
    refine le_antisymm hab (not_lt.mp fun hlt => ?_)
    obtain ⟨x, hx, -⟩ := (hcovers a).mpr ⟨le_rfl, hlt⟩
    cases hx
  | cons x rest ih =>
    obtain ⟨hafter, hrest⟩ := List.pairwise_cons.mp hordered
    obtain ⟨hx, hlasts⟩ := List.forall_mem_cons.mp hlasting
    obtain ⟨hle, hlt⟩ := (hcovers (start x)).mp ⟨x, List.mem_cons_self, le_rfl, hx⟩
    have hstart : start x = a := by
      obtain ⟨y, hy, hin⟩ := (hcovers a).mpr ⟨le_rfl, hle.trans_lt hlt⟩
      rcases List.mem_cons.mp hy with rfl | hy
      · exact le_antisymm hin.1 hle
      · exact absurd ((hx.trans_le (hafter y hy)).trans_le (hin.1.trans hle)) (lt_irrefl _)
    have hstop : stop x ≤ b := by
      by_contra hgt
      have hend := (hcovers b).mp ⟨x, List.mem_cons_self, hlt.le, not_le.mp hgt⟩
      exact absurd hend.2 (lt_irrefl _)
    refine ⟨hstart, hx, ih hstop hlasts hrest fun time => ?_⟩
    constructor
    · rintro ⟨y, hy, hin⟩
      refine ⟨(hafter y hy).trans hin.1, ?_⟩
      exact ((hcovers time).mp ⟨y, List.mem_cons_of_mem _ hy, hin⟩).2
    · rintro ⟨hge, hlt'⟩
      have hin : a ≤ time := hstart ▸ (hx.le.trans hge)
      obtain ⟨y, hy, hyin⟩ := (hcovers time).mpr ⟨hin, hlt'⟩
      rcases List.mem_cons.mp hy with rfl | hy
      · exact absurd (hyin.2.trans_le hge) (lt_irrefl _)
      · exact ⟨y, hy, hyin⟩

/-- Other things with the same instants are tiles as well. -/
lemma map {β σ : Type} [LinearOrder σ] {start' stop' : β → σ} {f : α → β} {g : τ → σ}
    (hg : StrictMono g) (hstart : ∀ x ∈ l, start' (f x) = g (start x))
    (hstop : ∀ x ∈ l, stop' (f x) = g (stop x)) (h : Tiles start stop a l b) :
    Tiles start' stop' (g a) (l.map f) (g b) := by
  induction l generalizing a with
  | nil => exact congrArg g h
  | cons x rest ih =>
    obtain ⟨hx, hlt, hrest⟩ := h
    have hbegin := hstart x List.mem_cons_self
    have hend := hstop x List.mem_cons_self
    refine ⟨hbegin.trans (congrArg g hx), ?_, ?_⟩
    · rw [hbegin, hend]
      exact hg hlt
    · rw [hend]
      exact ih (fun y hy => hstart y (List.mem_cons_of_mem _ hy))
        (fun y hy => hstop y (List.mem_cons_of_mem _ hy)) hrest

end Tiles

end PatternScore
