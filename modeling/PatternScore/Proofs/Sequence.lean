import Mathlib.Tactic

/-!
# Steps that may fail, one after another

What a whole list of steps gives when every step succeeds, and what it says of the single steps.
-/

namespace PatternScore

variable {α β γ ε ε' : Type}

/-- What two steps give, the second one gives of what the first one gives. -/
lemma exists_of_bind_eq_ok {x : Except ε α} {f : α → Except ε β} {y : β}
    (h : x >>= f = .ok y) : ∃ a, x = .ok a ∧ f a = .ok y := by
  cases x with
  | error e => cases h
  | ok a => exact ⟨a, rfl, h⟩

/-- A step succeeds whatever its failures are made into. -/
lemma mapError_eq_ok_iff {x : Except ε α} {f : ε → ε'} {a : α} :
    x.mapError f = .ok a ↔ x = .ok a := by
  cases x <;> simp [Except.mapError]

/-- Steps that all succeed give the list of their results. -/
lemma mapM_eq_ok {f : α → Except ε β} {g : α → β} {l : List α} (h : ∀ x ∈ l, f x = .ok (g x)) :
    l.mapM f = .ok (l.map g) := by
  induction l with
  | nil => rfl
  | cons x rest ih =>
    have hx := h x List.mem_cons_self
    have hrest := ih fun y hy => h y (List.mem_cons_of_mem _ hy)
    rw [List.mapM_cons, hx, hrest]
    rfl

/-- Steps of which each succeeds with a result of some kind give a list of such results. -/
lemma exists_mapM_eq_ok [Nonempty β] {f : α → Except ε β} {P : α → β → Prop} {l : List α}
    (h : ∀ x ∈ l, ∃ y, f x = .ok y ∧ P x y) :
    ∃ g : α → β, l.mapM f = .ok (l.map g) ∧ ∀ x ∈ l, P x (g x) := by
  choose! g hg using h
  exact ⟨g, mapM_eq_ok fun x hx => (hg x hx).1, fun x hx => (hg x hx).2⟩

/-- A change of the items before some steps is one of their results, if it is so for each of
them. -/
lemma mapM_map_comm {f : α → Except ε α} {g : α → α} (h : ∀ x, f (g x) = (f x).map g)
    (l : List α) : (l.map g).mapM f = (l.mapM f).map (List.map g) := by
  induction l with
  | nil => rfl
  | cons x rest ih =>
    rw [List.map_cons, List.mapM_cons, List.mapM_cons, h, ih]
    cases f x with
    | error e => rfl
    | ok y => cases rest.mapM f <;> rfl

/-- Steps that all find something give the list of what they find. -/
lemma mapM_eq_some {f : α → Option β} {g : α → β} {l : List α} (h : ∀ x ∈ l, f x = some (g x)) :
    l.mapM f = some (l.map g) := by
  induction l with
  | nil => rfl
  | cons x rest ih =>
    have hx := h x List.mem_cons_self
    have hrest := ih fun y hy => h y (List.mem_cons_of_mem _ hy)
    rw [List.mapM_cons, hx, hrest]
    rfl

/-- Steps give a list of results exactly if each of them gives its result. -/
lemma mapM_eq_ok_iff {f : α → Except ε β} {l : List α} {results : List β} :
    l.mapM f = .ok results ↔ List.Forall₂ (fun x y => f x = .ok y) l results := by
  induction l generalizing results with
  | nil => cases results <;> simp [pure, Except.pure]
  | cons x rest ih =>
    rw [List.mapM_cons]
    cases hx : f x with
    | error e => cases results <;> simp [bind, Except.bind, hx]
    | ok y =>
      cases hrest : rest.mapM f with
      | error e => cases results <;> simp [bind, Except.bind, ← ih, hx, hrest]
      | ok ys => cases results <;> simp [bind, Except.bind, pure, Except.pure, ← ih, hx, hrest]

/-- What every step from one state to the next keeps, all of them keep. -/
lemma foldlM_keeps {f : β → α → Except ε β} {P : β → Prop} {l : List α} {b b' : β}
    (hstep : ∀ x ∈ l, ∀ a a', f a x = .ok a' → P a → P a') (h : l.foldlM f b = .ok b')
    (hb : P b) : P b' := by
  induction l generalizing b with
  | nil =>
    obtain rfl := Except.ok.inj h
    exact hb
  | cons x rest ih =>
    rw [List.foldlM_cons] at h
    obtain ⟨a, hx, hrest⟩ := exists_of_bind_eq_ok h
    obtain ⟨hfirst, hstep⟩ := List.forall_mem_cons.mp hstep
    exact ih hstep hrest (hfirst b a hx hb)

/-- Steps that fail do so by the failure of one of them. -/
lemma exists_of_mapM_eq_error {f : α → Except ε β} {l : List α} {e : ε}
    (h : l.mapM f = .error e) : ∃ x ∈ l, f x = .error e := by
  induction l with
  | nil => cases h
  | cons x rest ih =>
    rw [List.mapM_cons] at h
    cases hx : f x with
    | error e' =>
      obtain rfl : e' = e := by simpa [hx, bind, Except.bind] using h
      exact ⟨x, List.mem_cons_self, hx⟩
    | ok y =>
      cases hrest : rest.mapM f with
      | error e' =>
        obtain rfl : e' = e := by simpa [hx, hrest, bind, Except.bind] using h
        obtain ⟨x', hmem, hfail⟩ := ih hrest
        exact ⟨x', List.mem_cons_of_mem _ hmem, hfail⟩
      | ok ys =>
        rw [hx, hrest] at h
        cases h

/-- A test that succeeds on a list keeps what a test keeps that agrees with it. -/
lemma of_filterM_eq_ok {f : α → Except ε Bool} {g : α → Bool}
    (hg : ∀ x b, f x = .ok b → g x = b) {l kept : List α} (h : l.filterM f = .ok kept) :
    (∀ x ∈ l, f x = .ok (g x)) ∧ kept = l.filter g := by
  have haux : ∀ (l acc : List α) (kept : List α), l.filterAuxM f acc = .ok kept →
      (∀ x ∈ l, f x = .ok (g x)) ∧ kept = (l.filter g).reverse ++ acc := by
    intro l
    induction l with
    | nil =>
      intro acc kept h
      exact ⟨fun x hx => absurd hx List.not_mem_nil, (Except.ok.inj h).symm⟩
    | cons x rest ih =>
      intro acc kept h
      obtain ⟨b, hb, h⟩ := exists_of_bind_eq_ok h
      obtain rfl := hg x b hb
      obtain ⟨hrest, rfl⟩ := ih _ _ h
      refine ⟨List.forall_mem_cons.mpr ⟨hb, hrest⟩, ?_⟩
      rw [List.filter_cons]
      cases g x <;> simp
  obtain ⟨reversed, hreversed, h⟩ := exists_of_bind_eq_ok h
  obtain ⟨hall, rfl⟩ := haux l [] reversed hreversed
  refine ⟨hall, ?_⟩
  rw [← Except.ok.inj h]
  simp

/-- An element of a list belongs to one that is related to it. -/
lemma exists_mem_of_forall₂ {R : α → β → Prop} {l : List α} {m : List β}
    (h : List.Forall₂ R l m) {y : β} (hy : y ∈ m) : ∃ x ∈ l, R x y := by
  induction h with
  | nil => exact absurd hy List.not_mem_nil
  | cons hxy _ ih =>
    obtain rfl | hy := List.mem_cons.mp hy
    · exact ⟨_, List.mem_cons_self, hxy⟩
    · obtain ⟨x, hx, hrel⟩ := ih hy
      exact ⟨x, List.mem_cons_of_mem _ hx, hrel⟩

/-- Elements that are related in two ways are related in both. -/
lemma forall₂_and {R S : α → β → Prop} {l : List α} {m : List β} (hR : List.Forall₂ R l m)
    (hS : List.Forall₂ S l m) : List.Forall₂ (fun x y => R x y ∧ S x y) l m := by
  induction hR with
  | nil => exact .nil
  | cons hxy _ ih =>
    cases hS with
    | cons hxy' hrest => exact .cons ⟨hxy, hxy'⟩ (ih hrest)

/-- What is related to a list with a last element has a last element, which is related to that. -/
lemma forall₂_concat_iff {R : α → β → Prop} {l : List α} {x : α} {m : List β} :
    List.Forall₂ R (l ++ [x]) m ↔
      ∃ init last, m = init ++ [last] ∧ List.Forall₂ R l init ∧ R x last := by
  constructor
  · intro h
    induction l generalizing m with
    | nil =>
      obtain ⟨last, rest, hx, hrest, rfl⟩ := List.forall₂_cons_left_iff.mp h
      obtain rfl := List.forall₂_nil_left_iff.mp hrest
      exact ⟨[], last, rfl, .nil, hx⟩
    | cons y l ih =>
      obtain ⟨first, rest, hy, hrest, rfl⟩ := List.forall₂_cons_left_iff.mp h
      obtain ⟨init, last, rfl, hinit, hx⟩ := ih hrest
      exact ⟨first :: init, last, rfl, .cons hy hinit, hx⟩
  · rintro ⟨init, last, rfl, hinit, hx⟩
    exact List.rel_append hinit (.cons hx .nil)

/-- A test that never fails is a test of all elements. -/
lemma allM_eq_ok {f : α → Except ε Bool} {g : α → Bool} (h : ∀ x, f x = .ok (g x)) (l : List α) :
    l.allM f = .ok (l.all g) := by
  induction l with
  | nil => rfl
  | cons x rest ih =>
    rw [List.allM, h, List.all_cons]
    cases g x with
    | false => rfl
    | true => exact ih

/-! ## Other orders -/

/-- A test succeeds on all elements if it does on each. -/
lemma allM_eq_true_iff {f : α → Except ε Bool} {l : List α} :
    l.allM f = .ok true ↔ ∀ x ∈ l, f x = .ok true := by
  induction l with
  | nil => simp [List.allM, pure, Except.pure]
  | cons x rest ih =>
    rw [List.allM, List.forall_mem_cons]
    cases hx : f x with
    | error e => simp [bind, Except.bind]
    | ok b =>
      cases b with
      | false => simp [bind, Except.bind, pure, Except.pure]
      | true => simpa [bind, Except.bind] using ih

/-- A test that does not succeed on all elements does not on one of them. -/
lemma exists_of_allM_eq_false {f : α → Except ε Bool} {l : List α} (h : l.allM f = .ok false) :
    ∃ x ∈ l, f x = .ok false := by
  induction l with
  | nil => cases h
  | cons x rest ih =>
    rw [List.allM] at h
    obtain ⟨b, hb, h⟩ := exists_of_bind_eq_ok h
    cases b with
    | false => exact ⟨x, List.mem_cons_self, hb⟩
    | true =>
      obtain ⟨y, hy, hfail⟩ := ih h
      exact ⟨y, List.mem_cons_of_mem _ hy, hfail⟩

/-- A test that has an answer for each element has one for all. -/
lemma exists_allM_eq_ok {f : α → Except ε Bool} {l : List α} (h : ∀ x ∈ l, ∃ b, f x = .ok b) :
    ∃ b, l.allM f = .ok b := by
  induction l with
  | nil => exact ⟨true, rfl⟩
  | cons x rest ih =>
    obtain ⟨⟨b, hb⟩, hrest⟩ := List.forall_mem_cons.mp h
    rw [List.allM, hb]
    cases b with
    | false => exact ⟨false, rfl⟩
    | true => exact ih hrest

/-- In whatever order elements are tested, the answer is the same if there is one. -/
lemma allM_unique_of_perm {f : α → Except ε Bool} {l l' : List α} {b b' : Bool}
    (hperm : l.Perm l') (h : l.allM f = .ok b) (h' : l'.allM f = .ok b') : b = b' := by
  have hone {l l' : List α} (hperm : l.Perm l') (h : l.allM f = .ok true) :
      l'.allM f ≠ .ok false := by
    intro h'
    obtain ⟨x, hx, hfail⟩ := exists_of_allM_eq_false h'
    rw [allM_eq_true_iff.mp h x (hperm.mem_iff.mpr hx)] at hfail
    cases hfail
  cases b <;> cases b'
  · rfl
  · exact absurd h (hone hperm.symm h')
  · exact absurd h' (hone hperm h)
  · rfl

/-- In whatever order steps are taken, they give the same results, in that order. -/
lemma exists_mapM_perm {f : α → Except ε β} {l l' : List α} {results : List β}
    (hperm : l.Perm l') (h : l.mapM f = .ok results) :
    ∃ results', l'.mapM f = .ok results' ∧ results.Perm results' := by
  obtain ⟨results', hall, hresults⟩ := List.perm_comp_forall₂ hperm.symm (mapM_eq_ok_iff.mp h)
  exact ⟨results', mapM_eq_ok_iff.mpr hall, hresults.symm⟩

/-- Steps that follow steps may be taken together with them. -/
lemma mapM_bind_eq_ok {f : α → Except ε β} {g : β → Except ε γ} {l : List α} {between : List β}
    {results : List γ} (h : l.mapM f = .ok between) (h' : between.mapM g = .ok results) :
    l.mapM (fun x => f x >>= g) = .ok results := by
  rw [mapM_eq_ok_iff] at h h' ⊢
  induction h generalizing results with
  | nil =>
    cases h'
    exact .nil
  | cons hx _ ih =>
    cases h' with
    | cons hy hrest =>
      refine .cons ?_ (ih hrest)
      rw [hx]
      exact hy

/-! ## Failures -/

/-- Whatever failure a step ends with has a property. -/
def FailsIn (P : ε → Prop) (x : Except ε α) : Prop :=
  ∀ e, x = .error e → P e

variable {P : ε → Prop}

/-- What gives a result does not fail. -/
lemma failsIn_ok (a : α) : FailsIn P (.ok a) := by
  intro e h
  cases h

/-- What fails in a given way fails in that way only. -/
lemma failsIn_error {e : ε} (h : P e) : FailsIn P (.error e : Except ε α) := by
  intro e' h'
  cases h'
  exact h

/-- A property of all failures carries over to a weaker one. -/
lemma FailsIn.mono {Q : ε → Prop} {x : Except ε α} (h : FailsIn P x) (hPQ : ∀ e, P e → Q e) :
    FailsIn Q x :=
  fun e he => hPQ e (h e he)

/-- Two steps fail as one of them does. -/
lemma FailsIn.bind {x : Except ε α} {f : α → Except ε β} (hx : FailsIn P x)
    (hf : ∀ a, FailsIn P (f a)) : FailsIn P (x >>= f) := by
  intro e h
  cases hx' : x with
  | error e' =>
    rw [hx'] at h
    cases h
    exact hx e hx'
  | ok a =>
    rw [hx'] at h
    exact hf a e h

/-- A list of steps fails as one of them does. -/
lemma FailsIn.mapM {f : α → Except ε β} (hf : ∀ a, FailsIn P (f a)) (l : List α) :
    FailsIn P (l.mapM f) := by
  intro e h
  obtain ⟨a, -, ha⟩ := exists_of_mapM_eq_error h
  exact hf a e ha

/-- A test of all elements fails as that of one of them does. -/
lemma FailsIn.allM {f : α → Except ε Bool} (hf : ∀ a, FailsIn P (f a)) (l : List α) :
    FailsIn P (l.allM f) := by
  induction l with
  | nil => exact failsIn_ok true
  | cons a rest ih =>
    refine (hf a).bind fun b => ?_
    cases b with
    | false => exact failsIn_ok false
    | true => exact ih

/-- A step fails in what its failures are made into. -/
lemma FailsIn.mapError {Q : ε' → Prop} {x : Except ε α} {g : ε → ε'} (h : FailsIn P x)
    (hg : ∀ e, P e → Q (g e)) : FailsIn Q (x.mapError g) := by
  intro e' he'
  cases x with
  | error e =>
    cases he'
    exact hg e (h e rfl)
  | ok a => cases he'

end PatternScore
