import Mathlib
import PatternScore.Proofs.Text.Joining
import PatternScore.Proofs.Text.Literal

/-!
# Texts that end where they can be seen to end

If two texts begin with pieces of one kind, what they have in common says where the pieces end: a
word ends before the first character that stands in no word (`append_cons_inj`), a string literal
ends where a reader finds its end (`literal_append_inj`), and a list that is joined at commas ends
at its bracket (`joinWith_append_inj`). So the pieces are equal and so is what follows them,
whatever that is.
-/

namespace PatternScore

open Text

variable {α : Type} {xs ys : List Char}

/-- Runs without certain elements, each with one of these behind it, are told apart. -/
lemma append_cons_inj (stop : α → Prop) {cs ds more rest : List α} {c d : α}
    (hcs : ∀ x ∈ cs, ¬ stop x) (hds : ∀ x ∈ ds, ¬ stop x) (hc : stop c) (hd : stop d)
    (h : cs ++ c :: more = ds ++ d :: rest) : cs = ds ∧ c = d ∧ more = rest := by
  induction cs generalizing ds with
  | nil =>
    cases ds with
    | nil => exact ⟨rfl, by simpa using h⟩
    | cons y ds => exact absurd ((List.cons.inj h).1 ▸ hc) (hds y List.mem_cons_self)
  | cons x cs ih =>
    cases ds with
    | nil => exact absurd ((List.cons.inj h).1 ▸ hd) (hcs x List.mem_cons_self)
    | cons y ds =>
      obtain ⟨rfl, hrest⟩ := List.cons.inj h
      obtain ⟨rfl, hmore⟩ := ih (fun z hz => hcs z (List.mem_cons_of_mem _ hz))
        (fun z hz => hds z (List.mem_cons_of_mem _ hz)) hrest
      exact ⟨rfl, hmore⟩

/-! ## Lists in brackets -/

/-- A text goes on with a comma or with the bracket that closes a list. -/
def GoesOn (close : Char) (cs : List Char) : Prop :=
  cs.head? = some ',' ∨ cs.head? = some close

/-- What is written of a list behind its first item: the other items behind a comma, or nothing. -/
def behindFirst (text : α → String) : List α → List Char
  | [] => []
  | x :: rest => ',' :: ' ' :: (joinWith ", " ((x :: rest).map text)).toList

/-- A list is written as its first item and what follows that. -/
lemma toList_joinWith_cons (text : α → String) (x : α) (rest : List α) :
    (joinWith ", " ((x :: rest).map text)).toList = (text x).toList ++ behindFirst text rest := by
  cases rest <;> simp [joinWith, behindFirst]

/-- Behind its first item a list goes on, or it is closed. -/
lemma goesOn_behindFirst (text : α → String) (close : Char) (rest : List α) (more : List Char) :
    GoesOn close (behindFirst text rest ++ close :: more) := by
  cases rest with
  | nil => exact .inr rfl
  | cons => exact .inl rfl

/-- A list in brackets tells its items and what follows it, if its items are told apart where a
comma or the bracket follows. -/
lemma joinWith_append_inj {text : α → String} {close : Char} (hclose : close ≠ ',')
    {items others : List α}
    (hopen : ∀ x, x ∈ items ∨ x ∈ others → ∀ more, ((text x).toList ++ more).head? ≠ some close)
    (hinj : ∀ x ∈ items, ∀ y ∈ others, ∀ xs ys, GoesOn close xs → GoesOn close ys →
      (text x).toList ++ xs = (text y).toList ++ ys → x = y ∧ xs = ys)
    (h : (joinWith ", " (items.map text)).toList ++ close :: xs =
      (joinWith ", " (others.map text)).toList ++ close :: ys) :
    items = others ∧ xs = ys := by
  induction items generalizing others with
  | nil =>
    cases others with
    | nil => exact ⟨rfl, by simpa [joinWith] using h⟩
    | cons y others =>
      rw [toList_joinWith_cons, List.append_assoc] at h
      have hhead := hopen y (.inr List.mem_cons_self) (behindFirst text others ++ close :: ys)
      rw [← h] at hhead
      exact absurd rfl hhead
  | cons x items ih =>
    cases others with
    | nil =>
      rw [toList_joinWith_cons, List.append_assoc] at h
      have hhead := hopen x (.inl List.mem_cons_self) (behindFirst text items ++ close :: xs)
      rw [h] at hhead
      exact absurd rfl hhead
    | cons y others =>
      rw [toList_joinWith_cons, toList_joinWith_cons, List.append_assoc, List.append_assoc] at h
      obtain ⟨rfl, hrest⟩ := hinj x List.mem_cons_self y List.mem_cons_self _ _
        (goesOn_behindFirst text close items xs) (goesOn_behindFirst text close others ys) h
      cases items with
      | nil =>
        cases others with
        | nil => exact ⟨rfl, (List.cons.inj hrest).2⟩
        | cons => exact absurd (List.cons.inj hrest).1 hclose
      | cons x' items =>
        cases others with
        | nil => exact absurd (List.cons.inj hrest).1.symm hclose
        | cons y' others =>
          obtain ⟨heq, hmore⟩ := @ih (y' :: others)
            (fun z hz => hopen z (hz.imp (List.mem_cons_of_mem _) (List.mem_cons_of_mem _)))
            (fun z hz w hw => hinj z (List.mem_cons_of_mem _ hz) w (List.mem_cons_of_mem _ hw))
            (List.cons.inj (List.cons.inj hrest).2).2
          exact ⟨by rw [heq], hmore⟩

end PatternScore
