import PatternScore.Proofs.Bar.Collecting
import PatternScore.Proofs.Bar.Holding

/-!
# Bars of a single line

Where no fragment overlaps another, nothing is to be laid out: every fragment is a span of its own,
no note is cut short, and none has to be held. The notes of the line are those of the fragments, in
their order.
-/

namespace PatternScore.Span

variable {s : Span} {line spans : List Span} {sounding : Int}

/-- Each span ends before the later ones begin. -/
def Apart (spans : List Span) : Prop :=
  spans.Pairwise fun s t => s.stop ≤ t.start

/-! ## Laying -/

/-- A span that begins behind a line is added to it. -/
lemma lay_of_behind (h : ∀ t ∈ line, t.stop ≤ s.start) : lay s line = append s line := by
  cases line with
  | nil => rfl
  | cons last before => rw [lay, if_pos (h last List.mem_cons_self)]

/-- No span of such a line ends behind the one that is added. -/
lemma stop_le_of_mem_append (hs : 0 < s.units) (h : ∀ t ∈ line, t.stop ≤ s.start) {t : Span}
    (ht : t ∈ append s line) : t.stop ≤ s.stop := by
  have hlong : s.start ≤ s.stop := by
    unfold Span.stop
    omega
  rcases append_cases s line with heq | ⟨last, before, rfl, -, -, htouch, heq⟩
  · rw [heq] at ht
    rcases List.mem_cons.mp ht with rfl | ht
    · exact le_rfl
    · exact (h t ht).trans hlong
  · rw [heq] at ht
    rcases List.mem_cons.mp ht with rfl | ht
    · simp only [Span.stop] at htouch ⊢
      omega
    · exact (h t (List.mem_cons_of_mem _ ht)).trans hlong

/-- Spans that are apart are laid behind the line one after another. -/
lemma notes_foldl_lay (hpositive : ∀ s ∈ spans, 0 < s.units) (hapart : Apart spans)
    (hbehind : ∀ t ∈ line, ∀ s ∈ spans, t.stop ≤ s.start) :
    notes (spans.foldl (fun line s => lay s line) line) = (notes spans).reverse ++ notes line := by
  induction spans generalizing line with
  | nil => rfl
  | cons s rest ih =>
    obtain ⟨hafter, hrest⟩ := List.pairwise_cons.mp hapart
    have hs := hpositive s List.mem_cons_self
    have hline : ∀ t ∈ line, t.stop ≤ s.start := fun t ht => hbehind t ht s List.mem_cons_self
    have hnotes : (notes (s :: rest)).reverse = (notes rest).reverse ++ notes [s] := by
      by_cases hrest : s.isRest = true
      · rw [notes_cons_of_isRest hrest, notes_cons_of_isRest hrest]
        exact (List.append_nil _).symm
      · have hnote : s.isRest = false := by simpa using hrest
        rw [notes_cons_of_note hnote, notes_cons_of_note hnote, List.reverse_cons]
        rfl
    have hcons : notes (s :: line) = notes [s] ++ notes line := by
      rw [← List.singleton_append, notes, List.filter_append]
      rfl
    rw [List.foldl_cons, lay_of_behind hline,
      ih (fun t ht => hpositive t (List.mem_cons_of_mem _ ht)) hrest fun t ht u hu =>
        (stop_le_of_mem_append hs hline ht).trans (hafter u hu),
      notes_append, hnotes, hcons, List.append_assoc]

/-- The chords of spans that are apart are the notes among them. -/
lemma chords_eq (hpositive : ∀ s ∈ spans, 0 < s.units) (hapart : Apart spans) :
    chords spans = notes spans := by
  have hnil : ∀ t ∈ ([] : List Span), ∀ s ∈ spans, t.stop ≤ s.start :=
    fun _ h => absurd h List.not_mem_nil
  have hnotes := notes_foldl_lay hpositive hapart hnil
  have hreverse : chords spans = (notes (spans.foldl (fun line s => lay s line) [])).reverse :=
    List.filter_reverse ..
  rw [hreverse, hnotes, List.reverse_append, List.reverse_reverse]
  rfl

/-! ## Holding -/

/-- Notes that are apart are not held. -/
lemma sustain_eq_self (hapart : Apart spans) (hlasting : ∀ s ∈ spans, s.start < s.stop)
    (hreach : ∀ s ∈ spans, s.reach = s.stop) (hsounding : ∀ s ∈ spans, sounding ≤ s.start) :
    sustain sounding spans = spans := by
  induction spans generalizing sounding with
  | nil => rfl
  | cons n rest ih =>
    obtain ⟨hafter, hrest⟩ := List.pairwise_cons.mp hapart
    have hn := hlasting n List.mem_cons_self
    have hown := hreach n List.mem_cons_self
    have hlow := hsounding n List.mem_cons_self
    have hmax : max sounding n.reach = n.stop := by omega
    have hvalue : (rest.head?.map fun m => min m.start n.stop).getD n.stop = n.stop := by
      cases rest with
      | nil => rfl
      | cons m rest => exact min_eq_right (hafter m List.mem_cons_self)
    have hself : n.lastingTo n.stop = n := by
      have hunits : n.stop - n.start = n.units := by
        unfold Span.stop
        omega
      rw [lastingTo, hunits]
    unfold sustain
    simp only [hmax, hvalue, hself]
    rw [ih hrest (fun s hs => hlasting s (List.mem_cons_of_mem _ hs))
      (fun s hs => hreach s (List.mem_cons_of_mem _ hs)) fun s hs => hafter s hs]

/-! ## Collecting -/

variable {τ : Type} {mode : ChordMode} {f : Fragment τ}

/-- The span of a fragment that stands alone. -/
def alone (f : Fragment τ) : Span :=
  { ofFragment f with reach := (ofFragment f).stop }

/-- A fragment of a new key begins a span of its own. -/
lemma absorb_of_new {spans : List (Key × Span)} (h : ∀ x ∈ spans, x.1 ≠ Key.ofFragment mode f) :
    absorb mode f spans = spans ++ [(Key.ofFragment mode f, ofFragment f)] := by
  induction spans with
  | nil => rfl
  | cons first rest ih =>
    obtain ⟨hfirst, hrest⟩ := List.forall_mem_cons.mp h
    rw [absorb, if_neg hfirst, ih hrest]
    rfl

/-- Fragments of different keys become spans of their own. -/
lemma foldl_absorb {fragments : List (Fragment τ)} {spans : List (Key × Span)}
    (hnew : ∀ x ∈ spans, ∀ f ∈ fragments, x.1 ≠ Key.ofFragment mode f)
    (hdistinct : fragments.Pairwise fun f g => Key.ofFragment mode f ≠ Key.ofFragment mode g) :
    fragments.foldl (fun spans f => absorb mode f spans) spans =
      spans ++ fragments.map fun f => (Key.ofFragment mode f, ofFragment f) := by
  induction fragments generalizing spans with
  | nil => exact (List.append_nil spans).symm
  | cons f rest ih =>
    obtain ⟨hfirst, hrest⟩ := List.pairwise_cons.mp hdistinct
    have hown : ∀ x ∈ spans, x.1 ≠ Key.ofFragment mode f := fun x hx =>
      hnew x hx f List.mem_cons_self
    rw [List.foldl_cons, absorb_of_new hown, ih ?_ hrest, List.append_assoc]
    · rfl
    · intro x hx g hg
      rcases List.mem_append.mp hx with hx | hx
      · exact hnew x hx g (List.mem_cons_of_mem _ hg)
      · rw [List.mem_singleton.mp hx]
        exact hfirst g hg

/-- Keys of timing tell the start. -/
lemma start_eq_of_key {f g : Fragment τ}
    (h : Key.ofFragment .timing f = Key.ofFragment .timing g) : f.offsetUnits = g.offsetUnits := by
  simp only [Key.ofFragment] at h
  cases hf : f.pitch <;> cases hg : g.pitch <;> simp_all

/-- Fragments that begin one after another are collected as they are. -/
lemma collect_eq_of_increasing {fragments : List (Fragment τ)}
    (hincreasing : fragments.Pairwise fun f g => f.offsetUnits < g.offsetUnits) :
    collect .timing fragments = fragments.map alone := by
  have hdistinct : fragments.Pairwise fun f g =>
      Key.ofFragment .timing f ≠ Key.ofFragment .timing g :=
    hincreasing.imp fun hlt heq => absurd (start_eq_of_key heq) hlt.ne
  have hfold : fragments.foldl (fun spans f => absorb .timing f spans) [] =
      fragments.map fun f => (Key.ofFragment .timing f, ofFragment f) :=
    foldl_absorb (fun _ h => absurd h List.not_mem_nil) hdistinct
  have hsorted : (fragments.map alone).Pairwise fun s t => precedes s t = true := by
    refine List.pairwise_map.mpr (hincreasing.imp fun {f g} hlt => ?_)
    have hne : (alone f).start ≠ (alone g).start := hlt.ne
    rw [precedes, if_pos hne]
    exact decide_eq_true hlt
  have hspans : (fragments.map fun f => (Key.ofFragment .timing f, ofFragment f)).map
      (fun x => { x.2 with reach := x.2.stop }) = fragments.map alone := by
    rw [List.map_map]
    rfl
  rw [collect, hfold]
  exact (congrArg (List.mergeSort · precedes) hspans).trans (List.mergeSort_of_pairwise hsorted)

/-- Fragments that are apart are collected as they are. -/
lemma collect_eq {fragments : List (Fragment τ)} (hpositive : ∀ f ∈ fragments, 0 < f.units)
    (hapart : Apart (fragments.map alone)) :
    collect .timing fragments = fragments.map alone := by
  apply collect_eq_of_increasing
  refine (List.pairwise_map.mp hapart).imp_of_mem fun {f g} hf _ hle => ?_
  have hlong := hpositive f hf
  have hbefore : f.offsetUnits + f.units ≤ g.offsetUnits := hle
  omega

/-! ## The line -/

/-- The notes of a line are those of the fragments if these are apart. -/
theorem notes_layOut {fragments : List (Fragment τ)} (hpositive : ∀ f ∈ fragments, 0 < f.units)
    (hstart : ∀ f ∈ fragments, 0 ≤ f.offsetUnits) (hapart : Apart (fragments.map alone)) :
    notes (layOut (collect .timing fragments)) = notes (fragments.map alone) := by
  have hspans : ∀ s ∈ fragments.map alone, 0 < s.units ∧ 0 ≤ s.start ∧ s.reach = s.stop := by
    intro s hs
    obtain ⟨f, hf, rfl⟩ := List.mem_map.mp hs
    exact ⟨hpositive f hf, hstart f hf, rfl⟩
  have hprecedes : (fragments.map alone).Pairwise Precedes := by
    refine hapart.imp_of_mem fun {s t} hs _ hle => ?_
    have hlong := (hspans s hs).1
    have hlt : s.start < t.start := by
      unfold Span.stop at hle
      omega
    exact ⟨hlt.le, fun heq => absurd heq hlt.ne⟩
  have hinOrder : InOrder (fragments.map alone) :=
    ⟨fun s hs => (hspans s hs).1, fun s hs => (hspans s hs).2.2, hprecedes⟩
  have hnotes : ∀ s ∈ notes (fragments.map alone), s ∈ fragments.map alone := fun s hs =>
    (mem_notes.mp hs).1
  rw [collect_eq hpositive hapart, hinOrder.notes_layOut_eq, chords_eq hinOrder.units_pos hapart]
  refine sustain_eq_self (hapart.filter _) (fun s hs => ?_) (fun s hs => ?_) fun s hs => ?_
  · have hlong := (hspans s (hnotes s hs)).1
    unfold Span.stop
    omega
  · exact (hspans s (hnotes s hs)).2.2
  · exact (hspans s (hnotes s hs)).2.1

end PatternScore.Span
