import Mathlib.Tactic

/-!
# Intervals of time

Intervals of which no two share an instant, and which all lie between two instants, are together no
longer than the time between these. In the order of their starts each ends before the next one
begins, so the time before the first one can be raised interval by interval (`total_le_of_ordered`);
and neither their total length nor their being apart depends on the order (`total_le`).
-/

namespace PatternScore

/-- The time from an instant on until a later one. -/
structure Interval where
  /-- Its first instant. -/
  start : Rat
  /-- The first instant behind it. -/
  stop : Rat
  /-- It has an instant. -/
  start_lt_stop : start < stop

namespace Interval

variable {x y : Interval} {l : List Interval} {a b : Rat}

/-- An instant belongs to an interval. -/
def Has (x : Interval) (time : Rat) : Prop :=
  x.start ≤ time ∧ time < x.stop

/-- Two intervals share no instant. -/
def Apart (x y : Interval) : Prop :=
  ∀ time, x.Has time → ¬ y.Has time

/-- How long some intervals are together. -/
def total (l : List Interval) : Rat :=
  (l.map fun x => x.stop - x.start).sum

/-- Two lists of intervals last as long together as each of them. -/
lemma total_append (l m : List Interval) : total (l ++ m) = total l + total m := by
  simp [total]

/-- Sharing no instant is mutual. -/
lemma Apart.symm (h : x.Apart y) : y.Apart x :=
  fun time hy hx => h time hx hy

/-- Of intervals that are apart, the one that begins first ends before the other. -/
lemma Apart.stop_le (h : x.Apart y) (hle : x.start ≤ y.start) : x.stop ≤ y.start := by
  by_contra hlt
  exact h y.start ⟨hle, not_le.mp hlt⟩ ⟨le_rfl, y.start_lt_stop⟩

/-- Intervals in order fill at most the time in which they lie. -/
lemma total_le_of_ordered (hordered : l.Pairwise fun x y => x.stop ≤ y.start)
    (hwithin : ∀ x ∈ l, a ≤ x.start ∧ x.stop ≤ b) (hab : a ≤ b) : total l ≤ b - a := by
  induction l generalizing a with
  | nil => simpa [total] using hab
  | cons x rest ih =>
    obtain ⟨hbehind, hrest⟩ := List.pairwise_cons.mp hordered
    obtain ⟨⟨hstart, hstop⟩, hwithin⟩ := List.forall_mem_cons.mp hwithin
    have hnext := ih hrest (fun y hy => ⟨hbehind y hy, (hwithin y hy).2⟩) hstop
    have htotal : total (x :: rest) = x.stop - x.start + total rest := by simp [total]
    linarith

/-- Intervals that are apart fill at most the time in which they lie. -/
theorem total_le (hapart : l.Pairwise Apart) (hwithin : ∀ x ∈ l, a ≤ x.start ∧ x.stop ≤ b)
    (hab : a ≤ b) : total l ≤ b - a := by
  set sorted := l.mergeSort fun x y => decide (x.start ≤ y.start) with hsorted
  have hperm : sorted.Perm l := List.mergeSort_perm _ _
  have hstarts : sorted.Pairwise fun x y => x.start ≤ y.start := by
    have hpairwise : sorted.Pairwise fun x y => decide (x.start ≤ y.start) = true := by
      refine List.pairwise_mergeSort (fun x y z hxy hyz => ?_) (fun x y => ?_) l
      · simp only [decide_eq_true_eq] at hxy hyz ⊢
        exact hxy.trans hyz
      · simpa using le_total x.start y.start
    exact hpairwise.imp fun hle => of_decide_eq_true hle
  have hordered : sorted.Pairwise fun x y => x.stop ≤ y.start := by
    have hapart' : sorted.Pairwise Apart := (hperm.pairwise_iff fun h => h.symm).mpr hapart
    exact hapart'.imp₂ (fun _ _ h hle => h.stop_le hle) hstarts
  have htotal : total sorted = total l := (hperm.map _).sum_eq
  rw [← htotal]
  exact total_le_of_ordered hordered (fun x hx => hwithin x (hperm.mem_iff.mp hx)) hab

end Interval

end PatternScore
