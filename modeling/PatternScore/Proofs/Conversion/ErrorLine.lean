import Mathlib.Tactic
import PatternScore.Conversion.Run
import PatternScore.Proofs.Bar.Fatal
import PatternScore.Proofs.Text.Unbroken

/-!
# The comment in place of a program

A conversion of which no voice is left gives a comment with a message in it, and the message may
come from the input: it is that of the failure that ended the conversion, or it begins with the name
of the first voice that was dropped. The comment is one line exactly if that part of the message is
unbroken (`Conversion.run_voiceless`); the rest of it always is, since a voice is dropped only for a
number of its bar grid (`VoicePlan.tidy_build`). A voice whose name has two lines breaks the
comment, and its second line is no comment (`Conversion.not_forall_line`).
-/

namespace PatternScore

open Text

/-! ## Failures of the bar grid -/

/-- If the failure is about the bar grid, its message is unbroken. -/
def Failure.Tidy (f : Failure) : Prop :=
  f.kind = .configuration → Unbroken f.message

/-- A failure that is not about the bar grid need not be unbroken. -/
lemma Failure.Fatal.tidy {f : Failure} (h : f.Fatal) : f.Tidy :=
  fun hkind => absurd hkind h

/-- A value of the wrong shape is not about the bar grid. -/
lemma Failure.fatal_of_shape {f : Failure} (h : f.kind = .shape) : f.Fatal := by
  rw [Failure.Fatal, h]
  decide

variable {τ : Type} [Scalar τ]

namespace Settings

/-- A refused quantity ends the conversion if its refusal does. -/
lemma fatal_refused {refusal : String → Failure} (h : ∀ kind, (refusal kind).Fatal)
    (kind : String) :
    (refused refusal kind).Fatal := by
  unfold refused
  split
  · decide
  · exact h kind

end Settings

/-- A setting fails as it is refused. -/
lemma Setting.fatal_getIf {α : Type} {refusal : String → Failure} (h : ∀ kind, (refusal kind).Fatal)
    (needed : Bool) (unneeded : α) (setting : Setting α) :
    FailsIn Failure.Fatal (setting.getIf needed unneeded refusal) := by
  cases setting with
  | value a => exact failsIn_ok a
  | misfit kind =>
    show FailsIn _ (if needed = true then .error (refusal kind) else .ok unneeded)
    split
    · exact failsIn_error (h kind)
    · exact failsIn_ok unneeded

/-- A header gives no bar length for a number that its message shows, or the failure is fatal. -/
lemma Header.tidy_barLength [Scalar.Unbroken τ] (h : Header τ) :
    FailsIn Failure.Tidy h.barLength := by
  unfold barLength
  apply FailsIn.bind
  · unfold beatsPerBar
    split
    · apply failsIn_error
      intro _
      show Unbroken ("Degenerate meter " ++ int h.numerator ++ "/" ++ int h.denominator)
      simp only [unbroken_append, unbroken_int, and_true]
      decide
    · apply (((Scalar.fatal_ratio 4 h.denominator).mono fun _ => Failure.Fatal.tidy)).bind
      intro unit
      apply (((Scalar.fatal_ofInt h.numerator).mono fun _ => Failure.Fatal.tidy)).bind
      intro count
      exact failsIn_ok _
  · intro beats
    apply FailsIn.bind
    · unfold msPerBeat
      split
      · apply failsIn_error
        intro _
        exact unbroken_append.mpr ⟨by decide, Scalar.Unbroken.text_unbroken h.tempo⟩
      · exact (Scalar.fatal_div _ _).mono fun _ => Failure.Fatal.tidy
    · intro beat
      exact failsIn_ok _

/-- A grid is refused for a number that the message shows. -/
lemma Grid.tidy_segment [Scalar.Unbroken τ] (g : Grid τ) (events : List (Event τ)) :
    FailsIn Failure.Tidy (g.segment events) := by
  unfold segment
  split
  · apply failsIn_error
    intro _
    exact unbroken_append.mpr ⟨by decide, Scalar.Unbroken.text_unbroken g.length⟩
  · split
    · apply failsIn_error
      intro _
      exact unbroken_append.mpr ⟨by decide, Scalar.Unbroken.text_unbroken g.tolerance⟩
    · exact failsIn_ok _

namespace VoicePlan

variable (p : VoicePlan τ)

omit [Scalar τ] in
/-- The tolerance as it was written is unbroken as well. -/
lemma tidy_asWritten {f : Failure} (h : f.Tidy) : (p.asWritten f).Tidy := by
  unfold asWritten
  split
  · split
    · intro _
      exact unbroken_append.mpr ⟨by decide, unbroken_int _⟩
    · exact h
  · exact h

/-- What goes wrong between a bar's fragments and its tokens is fatal. -/
lemma fatal_tokenize (length : τ) (s : Slot τ) : FailsIn Failure.Fatal (p.tokenize length s) := by
  unfold tokenize
  apply FailsIn.bind
  · unfold search
    apply (Setting.fatal_getIf (fun kind => Failure.fatal_of_shape rfl) _ _ _).bind
    intro maxMultiplier
    apply (Setting.fatal_getIf ?_ _ _ _).bind
    · intro tolerance
      exact failsIn_ok _
    · apply Settings.fatal_refused
      intro kind
      split <;> exact Failure.fatal_of_shape rfl
  · intro search
    apply ((Slot.fatal_quantize _ s).mapError fun _ h => h).bind
    intro s'
    exact (Slot.fatal_group _ s').mapError fun _ h => h

/-- Whatever keeps a voice from being built, if it is about the bar grid, its message is
unbroken. -/
lemma tidy_build [Scalar.Unbroken τ] (events : List (Event τ)) :
    FailsIn Failure.Tidy (p.build events) := by
  unfold build
  apply (p.header.tidy_barLength).bind
  intro length
  have hrefused (refusal : String → Failure) (h : ∀ kind, (refusal kind).Fatal) (needed : Bool)
      (setting : Setting τ) : FailsIn Failure.Tidy
        (setting.getIf needed Scalar.zero (Settings.refused refusal)) :=
    (Setting.fatal_getIf (Settings.fatal_refused h) needed _ setting).mono
      fun _ => Failure.Fatal.tidy
  apply (hrefused _ (fun kind => Failure.fatal_of_shape rfl) _ _).bind
  intro epsilon
  apply (hrefused _ (fun kind => Failure.fatal_of_shape rfl) _ _).bind
  intro tolerance
  apply ((Grid.tidy_segment _ _).mapError fun _ h => p.tidy_asWritten h).bind
  intro slots
  exact (FailsIn.mapM (p.fatal_tokenize length) slots).mono fun _ => Failure.Fatal.tidy

end VoicePlan

/-! ## Error comments -/

/-- A comment is one line if its message is unbroken. -/
lemma isLine_errorText {message : String} : IsLine (errorText message) ↔ Unbroken message := by
  have hbegin : Unbroken "// " ∧ Unbroken "Error: " := by decide
  unfold errorText commentLine
  rw [isLine_append, unbroken_append, unbroken_append]
  exact ⟨fun h => h.2.2, fun h => ⟨hbegin.1, hbegin.2, h⟩⟩

/-- How an error comment begins and ends. -/
lemma errorText_eq (message : String) : errorText message = "// Error: " ++ message ++ "\n" := by
  have hbegin : "// " ++ "Error: " = "// Error: " := by decide
  unfold errorText commentLine
  simp only [← hbegin, String.append_assoc]

/-- What a failure that ends a conversion is reported as. -/
def Failure.report (f : Failure) : String :=
  if f.kind = .source then f.message else f.summary

namespace Conversion

variable {policy : Policy} {c : Settings τ} {d : Document τ} {input : Except Failure (Document τ)}

/-- The voices that are left to a conversion: none if it has nothing to convert, if a failure ended
the building of the voices, or if each of them was dropped or has no bars. -/
def Voiceless (policy : Policy) (c : Settings τ) : Except Failure (Document τ) → Prop
  | .error _ => True
  | .ok d => (build policy c d).failure ≠ none ∨ (build policy c d).voices = []

/-- Of the voices of a list, which are numbered from `first` on, the one at place `i` is dropped and
none before it has bars. -/
structure DropsFirst (policy : Policy) (c : Settings τ) (d : Document τ) (first : Nat)
    (voices : List (List (Event τ))) (i : Nat) (f : Failure) : Prop where
  /-- The voice cannot be built. -/
  failed : ∃ events, voices[i]? = some events ∧
    (planOf policy c d (first + i)).build events = .error f
  /-- Its bar grid is the reason. -/
  kind_eq : f.kind = .configuration
  /-- The voices before it have no bars. -/
  before : ∀ j < i, ∀ events, voices[j]? = some events →
    (planOf policy c d (first + j)).build events = .ok []

/-- Why a conversion has no voice left, with the message that it reports and the part of it that may
come from the input. -/
inductive Reports (policy : Policy) (c : Settings τ) :
    Except Failure (Document τ) → String → String → Prop
  /-- There is no document. -/
  | raised (f : Failure) : Reports policy c (.error f) f.report f.report
  /-- A failure other than one of the bar grid ended the building of the voices. -/
  | stopped {d : Document τ} {f : Failure} (h : (build policy c d).failure = some f) :
      Reports policy c (.ok d) f.report f.report
  /-- A voice was dropped, the first of all. -/
  | dropped {d : Document τ} {voice : Nat} {f : Failure}
      (h : DropsFirst policy c d 0 d.voices voice f) :
      Reports policy c (.ok d) (d.voiceName voice ++ ": " ++ f.message) (d.voiceName voice)
  /-- No voice has bars. -/
  | nothing {d : Document τ} (h : ∀ voice events, d.voices[voice]? = some events →
        (planOf policy c d voice).build events = .ok []) :
      Reports policy c (.ok d) "No notes found" ""

/-- A voice without bars, before others. -/
lemma DropsFirst.cons {first i : Nat} {events : List (Event τ)} {rest : List (List (Event τ))}
    {f : Failure} (hbuild : (planOf policy c d first).build events = .ok [])
    (h : DropsFirst policy c d (first + 1) rest i f) :
    DropsFirst policy c d first (events :: rest) (i + 1) f where
  failed := by
    obtain ⟨events', hevents', hfailed⟩ := h.failed
    refine ⟨events', hevents', ?_⟩
    rw [← Nat.add_right_comm, Nat.add_assoc] at hfailed
    exact hfailed
  kind_eq := h.kind_eq
  before := by
    intro j hj events' hevents'
    cases j with
    | zero =>
      obtain rfl := Option.some.inj hevents'
      exact hbuild
    | succ j =>
      have hbefore := h.before j (Nat.lt_of_succ_lt_succ hj) events' hevents'
      rw [← Nat.add_right_comm, Nat.add_assoc] at hbefore
      exact hbefore

/-- If no voice is left and no failure ended the work, then no voice has bars, or the first error is
that of the first voice that was dropped. -/
lemma errors_buildFrom {first : Nat} {voices : List (List (Event τ))}
    (hfailure : (buildFrom policy c d first voices).failure = none)
    (hvoices : (buildFrom policy c d first voices).voices = []) :
    ((buildFrom policy c d first voices).errors = [] ∧ ∀ i events, voices[i]? = some events →
      (planOf policy c d (first + i)).build events = .ok []) ∨
    ∃ i f more, DropsFirst policy c d first voices i f ∧
      (buildFrom policy c d first voices).errors =
        (d.voiceName (first + i) ++ ": " ++ f.message) :: more := by
  induction voices generalizing first with
  | nil => exact .inl ⟨rfl, fun i events h => by simp at h⟩
  | cons events rest ih =>
    cases hbuild : (planOf policy c d first).build events with
    | error f =>
      by_cases hkind : f.kind = .configuration
      · -- this voice is the first that was dropped
        refine .inr ⟨0, f, (buildFrom policy c d (first + 1) rest).errors,
          ⟨⟨events, rfl, hbuild⟩, hkind, fun j hj => absurd hj j.not_lt_zero⟩, ?_⟩
        simp only [buildFrom, hbuild, if_pos hkind, Nat.add_zero]
      · simp only [buildFrom, hbuild, if_neg hkind] at hfailure
        cases hfailure
    | ok slots =>
      cases slots with
      | cons s slots =>
        simp only [buildFrom, hbuild] at hvoices
        cases hvoices
      | nil =>
        have hskip : buildFrom policy c d first (events :: rest) =
            buildFrom policy c d (first + 1) rest := by
          simp only [buildFrom, hbuild]
        rw [hskip] at hfailure hvoices ⊢
        obtain ⟨herrors, hall⟩ | ⟨i, f, more, hdrops, herrors⟩ := ih hfailure hvoices
        · refine .inl ⟨herrors, fun i events' hevents => ?_⟩
          cases i with
          | zero =>
            obtain rfl := Option.some.inj hevents
            exact hbuild
          | succ i =>
            have hrest := hall i events' hevents
            rw [← Nat.add_right_comm, Nat.add_assoc] at hrest
            exact hrest
        · refine .inr ⟨i + 1, f, more, hdrops.cons hbuild, ?_⟩
          rw [herrors, ← Nat.add_right_comm, Nat.add_assoc]

/-- The result of a conversion whose voices a failure kept from being built. -/
lemma ofDocument_stopped {f : Failure} (h : (build policy c d).failure = some f) :
    (ofDocument policy c d).text = errorText f.report ∧ (ofDocument policy c d).errors ≠ [] := by
  simp only [ofDocument, h]
  exact ⟨rfl, by simp [failed]⟩

/-- The result of a conversion all of whose voices were dropped or have no bars. -/
lemma ofDocument_silent (hfailure : (build policy c d).failure = none)
    (hvoices : (build policy c d).voices = []) :
    ofDocument policy c d = silent (build policy c d).errors := by
  simp [ofDocument, hfailure, hvoices]

/-- A conversion that has no voice left reports why. -/
lemma exists_reports (h : Voiceless policy c input) :
    ∃ message culprit, Reports policy c input message culprit ∧
      (run policy c input).text = errorText message ∧ (run policy c input).errors ≠ [] := by
  cases input with
  | error f => exact ⟨_, _, .raised f, rfl, by simp [run, failed]⟩
  | ok d =>
    cases hfailure : (build policy c d).failure with
    | some f =>
      obtain ⟨htext, herrors⟩ := ofDocument_stopped hfailure
      exact ⟨_, _, .stopped hfailure, htext, herrors⟩
    | none =>
      have hvoices : (build policy c d).voices = [] := h.resolve_left (not_not.mpr hfailure)
      have hsilent := ofDocument_silent hfailure hvoices
      rw [run, hsilent]
      obtain ⟨herrors, hall⟩ | ⟨voice, f, more, hdrops, herrors⟩ :=
        errors_buildFrom hfailure hvoices
      · refine ⟨_, _, .nothing fun voice events hevents => ?_, ?_⟩
        · simpa using hall voice events hevents
        · rw [build, herrors]
          exact ⟨rfl, by simp [silent]⟩
      · refine ⟨_, _, .dropped hdrops, ?_⟩
        rw [Nat.zero_add] at herrors
        rw [build, herrors]
        exact ⟨rfl, by simp [silent]⟩

/-- What is reported is unbroken if the part of it that may come from the input is. -/
lemma Reports.unbroken_iff [Scalar.Unbroken τ] {message culprit : String}
    (h : Reports policy c input message culprit) : Unbroken message ↔ Unbroken culprit := by
  cases h with
  | raised | stopped => exact Iff.rfl
  | nothing => exact ⟨fun _ => by decide, fun _ => by decide⟩
  | dropped hdrops =>
    obtain ⟨events, -, hfailed⟩ := hdrops.failed
    have hmessage := VoicePlan.tidy_build _ _ _ hfailed hdrops.kind_eq
    rw [unbroken_append, unbroken_append]
    exact ⟨fun h => h.1.1, fun h => ⟨⟨h, by decide⟩, hmessage⟩⟩

/-- Whatever the input is, a conversion that has no voice left gives a comment and an error. The
comment is one line exactly if the part of its message that may come from the input is unbroken:
that is the name of the first voice that was dropped, or else the message of the failure that ended
the conversion. -/
theorem run_voiceless [Scalar.Unbroken τ] (h : Voiceless policy c input) :
    ∃ message culprit, Reports policy c input message culprit ∧
      (run policy c input).text = "// Error: " ++ message ++ "\n" ∧
      (run policy c input).errors ≠ [] ∧
      (IsLine (run policy c input).text ↔ Unbroken culprit) := by
  obtain ⟨message, culprit, hreports, htext, herrors⟩ := exists_reports h
  refine ⟨message, culprit, hreports, ?_, herrors, ?_⟩
  · rw [htext, errorText_eq]
  · rw [htext, isLine_errorText, hreports.unbroken_iff]

/-- A document with one note in a meter of no beats. -/
def unmetered (name : String) : Document Float where
  header := { tempo := Header.defaultTempo, numerator := 0 }
  voices := [[{ onset := Scalar.zero, duration := Scalar.nearest 480, pitch := some 0 }]]
  names := [name]
  pickup := Scalar.zero

/-- Its voice is dropped, since its bars have no length. -/
lemma build_unmetered (name : String) :
    build {} Settings.standard (unmetered name) =
      { errors := [(unmetered name).voiceName 0 ++ ": Degenerate meter 0/4"] } := by
  have hbuild (events : List (Event Float)) :
      (planOf {} Settings.standard (unmetered name) 0).build events =
        .error (.degenerateMeter 0 4) := rfl
  have hmessage : (Failure.degenerateMeter 0 4).message = "Degenerate meter 0/4" := by
    decide +kernel
  have hjoined : ": " ++ "Degenerate meter 0/4" = ": Degenerate meter 0/4" := by decide +kernel
  simp only [build, unmetered, buildFrom] at hbuild ⊢
  simp only [hbuild, hmessage, String.append_assoc, hjoined]
  rfl

/-- The name of the voice comes first in the comment. -/
lemma run_unmetered {name : String} (h : name ≠ "") :
    (run {} Settings.standard (.ok (unmetered name))).text =
      "// Error: " ++ (name ++ ": Degenerate meter 0/4") ++ "\n" := by
  have hname : (unmetered name).voiceName 0 = name := by
    show (if name.isEmpty then "Voice " ++ nat (0 + 1) else name) = name
    rw [if_neg (by simpa using h)]
  rw [run, ofDocument, build_unmetered, hname, ← errorText_eq]
  rfl

/-- A voice that is dropped under a name of one line is reported in one line. -/
theorem run_voiceless_unmetered :
    ∃ message culprit, Reports {} Settings.standard (.ok (unmetered "Lead")) message culprit ∧
      (run {} Settings.standard (.ok (unmetered "Lead"))).text = "// Error: " ++ message ++ "\n" ∧
      (run {} Settings.standard (.ok (unmetered "Lead"))).errors ≠ [] ∧
      (IsLine (run {} Settings.standard (.ok (unmetered "Lead"))).text ↔ Unbroken culprit) := by
  apply run_voiceless
  right
  rw [build_unmetered]

/-- The comment need not be one line: the name of a voice that is dropped may have two. -/
theorem not_forall_line :
    ¬ ∀ (policy : Policy) (c : Settings Float) (input : Except Failure (Document Float)),
      Voiceless policy c input → IsLine (run policy c input).text := by
  intro hall
  have hvoiceless : Voiceless {} Settings.standard (.ok (unmetered "Lead\nhush()")) := by
    right
    rw [build_unmetered]
  have hline := hall _ _ _ hvoiceless
  rw [run_unmetered (by decide), ← errorText_eq, isLine_errorText] at hline
  exact absurd hline (by decide +kernel)

end Conversion

end PatternScore
