import Mathlib
import PatternScore.Proofs.Pattern.Unambiguous

/-!
# The text of a program determines the music

The lines of a program's text are told apart by what they begin with: comments, the tempo, a blank
line, the bar arrays, a blank line and the section arrays if there are any, a blank line and the
program. Each line then tells what it declares. The main statement is that compositions of one text
have the same tempo, bars, sections and program (`Composition.music_eq_of_write_eq`), so that no two
pieces of music are ever written alike.
-/

namespace PatternScore

open Text

/-! ## Declarations -/

/-- The characters of a declaration: its name, and its items in brackets. -/
lemma toList_declaration (name : String) (items : List String) : (declaration name items).toList =
    "const ".toList ++ (name.toList ++ ' ' :: '=' :: ' ' :: '[' ::
      ((joinWith ", " items).toList ++ ']' :: [';'])) := by
  simp [declaration]

/-- A declaration tells its name and its items, if the items are told apart in brackets. -/
lemma declaration_inj {α : Type} {text : α → String} {name other : String} {items others : List α}
    (hname : IsWord name) (hother : IsWord other)
    (hopen : ∀ x, x ∈ items ∨ x ∈ others → ∀ more, ((text x).toList ++ more).head? ≠ some ']')
    (hinj : ∀ x ∈ items, ∀ y ∈ others, ∀ xs ys,
      (text x).toList ++ xs = (text y).toList ++ ys → x = y ∧ xs = ys)
    (h : declaration name (items.map text) = declaration other (others.map text)) :
    name = other ∧ items = others := by
  have hlists := congrArg String.toList h
  rw [toList_declaration, toList_declaration, List.append_cancel_left_eq] at hlists
  obtain ⟨hnames, -, hitems⟩ := hname.append_inj hother (by decide) (by decide) hlists
  simp only [List.cons.injEq, true_and] at hitems
  obtain ⟨heq, -⟩ := joinWith_append_inj (by decide) hopen
    (fun x hx y hy xs ys _ _ => hinj x hx y hy xs ys) hitems
  exact ⟨hnames, heq⟩

/-- A declaration breaks no line if its name is a word and no item breaks one. -/
lemma oneLine_declaration {name : String} (hname : IsWord name) {items : List String}
    (hitems : ∀ item ∈ items, OneLine item) : OneLine (declaration name items) :=
  ((((OneLine.append (by decide) hname.oneLine).append (by decide)).append
    (OneLine.joinWith (by decide) hitems))).append (by decide)

namespace BarArray

/-- What a bar array declares: its name and the bars under it. -/
def content (a : BarArray) : String × List Bar :=
  (a.name, a.bars.map (·.tokens))

/-- The name is a word, and every note has a pitch. -/
structure Plain (a : BarArray) : Prop where
  /-- The name is a word. -/
  name : IsWord a.name
  /-- Every note has a pitch. -/
  pitched : ∀ u ∈ a.bars, u.tokens.Pitched

/-- The text of a bar in a bar array. -/
def barText (bar : Bar) : String :=
  "n(" ++ literal bar.text ++ ")"

/-- A bar array is the declaration of its bars. -/
lemma text_eq (a : BarArray) :
    a.text = declaration a.name ((a.bars.map (·.tokens)).map barText) := by
  rw [text, List.map_map]
  rfl

/-- Bar arrays of one text declare the same bars under the same name. -/
lemma content_eq_of_text_eq {a b : BarArray} (ha : a.Plain) (hb : b.Plain)
    (h : a.text = b.text) : a.content = b.content := by
  have hpitched : ∀ {c : BarArray}, c.Plain → ∀ bar ∈ c.bars.map (·.tokens), bar.Pitched := by
    intro c hc bar hbar
    obtain ⟨u, hu, rfl⟩ := List.mem_map.mp hbar
    exact hc.pitched u hu
  have hinj : ∀ bar ∈ a.bars.map (·.tokens), ∀ other ∈ b.bars.map (·.tokens),
      ∀ xs ys, (barText bar).toList ++ xs = (barText other).toList ++ ys →
        bar = other ∧ xs = ys := by
    intro bar hbar other hother xs ys heq
    simp only [barText, String.toList_append, List.append_assoc, List.append_cancel_left_eq] at heq
    obtain ⟨htext, hrest⟩ := literal_append_inj heq
    exact ⟨(hpitched ha bar hbar).eq_of_text_eq (hpitched hb other hother) htext,
      List.append_cancel_left hrest⟩
  rw [text_eq, text_eq] at h
  obtain ⟨hname, hbars⟩ := declaration_inj ha.name hb.name (by simp [barText]) hinj h
  exact Prod.ext hname hbars

/-- A bar array is written in one line. -/
lemma Plain.oneLine {a : BarArray} (h : a.Plain) : OneLine a.text := by
  refine oneLine_declaration h.name fun item hitem => ?_
  obtain ⟨u, -, rfl⟩ := List.mem_map.mp hitem
  exact (OneLine.append (by decide) (Bar.oneLine_text _).literal).append (by decide)

end BarArray

namespace SectionArray

/-- The names are words. -/
structure Plain (a : SectionArray) : Prop where
  /-- The name of the section is a word. -/
  name : IsWord a.name
  /-- The names of the bar arrays are words. -/
  refs : ∀ r ∈ a.refs, IsWord r.array

/-- Section arrays of one text are the same. -/
lemma eq_of_text_eq {a b : SectionArray} (ha : a.Plain) (hb : b.Plain) (h : a.text = b.text) :
    a = b := by
  have hopen : ∀ r, r ∈ a.refs ∨ r ∈ b.refs → ∀ more,
      (r.node.text.toList ++ more).head? ≠ some ']' := by
    intro r hr more
    exact (Node.Opens.bar (hr.elim (ha.refs r) (hb.refs r))).head?_ne (by decide) more
  have hinj : ∀ r ∈ a.refs, ∀ s ∈ b.refs, ∀ xs ys,
      r.node.text.toList ++ xs = s.node.text.toList ++ ys → r = s ∧ xs = ys := by
    intro r hr s hs xs ys heq
    obtain ⟨hnode, hrest⟩ := Node.core_append_inj (.bar (ha.refs r hr)) (.bar (hb.refs s hs)) heq
    simp only [Node.core, Node.bar.injEq, Int.natCast_inj] at hnode
    obtain ⟨array, index⟩ := r
    obtain ⟨rfl, rfl⟩ := hnode
    exact ⟨rfl, hrest⟩
  obtain ⟨hname, hrefs⟩ := declaration_inj ha.name hb.name hopen hinj h
  cases a
  cases b
  exact congr (congrArg SectionArray.mk hname) hrefs

/-- A section array is written in one line. -/
lemma Plain.oneLine {a : SectionArray} (h : a.Plain) : OneLine a.text := by
  refine oneLine_declaration h.name fun item hitem => ?_
  obtain ⟨r, hr, rfl⟩ := List.mem_map.mp hitem
  exact (Node.Plain.bar (h.refs r hr)).oneLine

end SectionArray

/-! ## Programs -/

namespace Program

/-- The pattern has plain names, no line is broken, and a sound is named if there is one. -/
structure Plain (p : Program) : Prop where
  /-- The pattern has plain names. -/
  body : p.body.Plain
  /-- The scale is one line. -/
  scale : OneLine p.scale
  /-- A sound that is named has a name of one line. -/
  sound : ∀ sound ∈ p.sound, sound ≠ "" ∧ OneLine sound

/-- What follows the scale in the text of a program. -/
def ending : Option String → String
  | none => ";"
  | some sound => ".s(" ++ literal sound ++ ");"

/-- The text of a program is that of its pattern, the scale and what ends it. -/
lemma Plain.text_eq {p : Program} (h : p.Plain) :
    p.text = p.body.text ++ ".scale(" ++ literal p.scale ++ ")" ++ ending p.sound := by
  apply String.toList_injective
  cases hsound : p.sound with
  | none => simp [text, ending, hsound]
  | some sound =>
    have hnamed := (h.sound sound hsound).1
    simp [text, ending, hsound, hnamed]

/-- What ends a program tells its sound. -/
lemma ending_injective : Function.Injective ending := by
  intro sound other h
  have hlists := congrArg String.toList h
  cases sound with
  | none =>
    cases other with
    | none => rfl
    | some other => simp [ending] at hlists
  | some sound =>
    cases other with
    | none => simp [ending] at hlists
    | some other =>
      simp only [ending, String.toList_append, List.append_assoc,
        List.append_cancel_left_eq] at hlists
      rw [(literal_append_inj hlists).1]

/-- Programs of one text are the same. -/
lemma eq_of_text_eq {p q : Program} (hp : p.Plain) (hq : q.Plain) (h : p.text = q.text) :
    p = q := by
  have hlists := congrArg String.toList h
  rw [hp.text_eq, hq.text_eq] at hlists
  simp only [String.toList_append, List.append_assoc] at hlists
  have hcall : ∀ more : List Char, ¬ Node.call <+: ".scale(".toList ++ more := by
    rintro more ⟨rest, heq⟩
    simp [Node.call] at heq
  obtain ⟨hbody, hlists⟩ := Node.text_append_inj hp.body hq.body (hcall _) (hcall _) hlists
  rw [List.append_cancel_left_eq] at hlists
  obtain ⟨hscale, hlists⟩ := literal_append_inj hlists
  rw [List.append_cancel_left_eq] at hlists
  have hsound := ending_injective (String.toList_injective hlists)
  cases p
  cases q
  exact congr (congr (congrArg Program.mk hbody) hscale) hsound

/-- A program is written in one line. -/
lemma Plain.oneLine {p : Program} (h : p.Plain) : OneLine p.text := by
  have hending : OneLine (ending p.sound) := by
    cases hsound : p.sound with
    | none => decide
    | some sound =>
      exact (OneLine.append (by decide) (h.sound sound hsound).2.literal).append (by decide)
  rw [h.text_eq]
  exact (((h.body.oneLine.append (by decide)).append h.scale.literal).append
    (by decide)).append hending

end Program

/-! ## Lines -/

/-- The lines of a text have no characters that end lines. -/
lemma isLineEnd_of_mem_lineChars {cs line : List Char} (h : line ∈ lineChars cs) {c : Char}
    (hc : c ∈ line) : isLineEnd c = false := by
  fun_induction lineChars cs generalizing line with
  | case1 => cases h
  | case2 d hd =>
    rw [List.mem_singleton.mp h] at hc
    cases hc
  | case3 d hd =>
    rw [List.mem_singleton.mp h] at hc
    rw [List.mem_singleton.mp hc]
    simpa using hd
  | case4 d e cs hfeed ih =>
    rcases List.mem_cons.mp h with rfl | h
    · cases hc
    · exact ih h hc
  | case5 d e cs hfeed hend ih =>
    rcases List.mem_cons.mp h with rfl | h
    · cases hc
    · exact ih h hc
  | case6 d e cs hfeed hend hlines ih =>
    rw [List.mem_singleton.mp h] at hc
    rw [List.mem_singleton.mp hc]
    simpa using hend
  | case7 d e cs hfeed hend first rest hlines ih =>
    rcases List.mem_cons.mp h with rfl | h
    · rcases List.mem_cons.mp hc with rfl | hc
      · simpa using hend
      · exact ih (hlines ▸ List.mem_cons_self) hc
    · exact ih (hlines ▸ List.mem_cons_of_mem _ h) hc

namespace Composition

/-- The names are words and the strings break no line. -/
structure Plain (c : Composition) : Prop where
  /-- The names of the bar arrays are words. -/
  arrays : ∀ a ∈ c.arrays, IsWord a.name
  /-- The section arrays are plain. -/
  sections : ∀ a ∈ c.sections, a.Plain
  /-- The program is plain. -/
  program : c.program.Plain
  /-- Comments are one line each. -/
  comments : ∀ s ∈ c.comments, OneLine s

/-- The lines behind the bar arrays, but for the blank one: the section arrays, if there are any,
and the program. -/
def closing (c : Composition) : List String :=
  if c.sections.isEmpty then [c.program.text]
  else c.sections.map SectionArray.text ++ "" :: [c.program.text]

/-- The comment lines. -/
def heading (c : Composition) : List String :=
  (titleLines c.title ++ c.comments).map commentLine

/-- The lines of a composition: comments, the tempo, a blank line, the bar arrays, another blank
line, and what closes it. -/
lemma lines_eq (c : Composition) :
    c.lines = c.heading ++ ("setcpm(" ++ int c.cyclesPerMinute ++ ")") ::
      "" :: (c.arrays.map BarArray.text ++ "" :: c.closing) := by
  unfold lines closing heading
  split <;> simp

/-- No line of a title holds a line feed. -/
lemma oneLine_of_mem_titleLines {title line : String} (h : line ∈ titleLines title) :
    OneLine line := by
  obtain ⟨full, hfull, rfl⟩ := List.mem_map.mp (List.mem_filter.mp h).1
  obtain ⟨cs, hcs, rfl⟩ := List.mem_map.mp hfull
  intro hfeed
  have hmem : '\n' ∈ cs := by
    simp only [trim, trimChars, trimRight, String.toList_ofList, List.mem_reverse] at hfeed
    have hdropped := (List.dropWhile_suffix _).subset hfeed
    rw [List.mem_reverse] at hdropped
    exact (List.dropWhile_suffix _).subset hdropped
  exact absurd (isLineEnd_of_mem_lineChars hcs hmem) (by decide)

/-- A line of comment is one line. -/
lemma Plain.oneLine_of_mem_heading {c : Composition} (h : c.Plain) {line : String}
    (hline : line ∈ c.heading) : OneLine line := by
  obtain ⟨s, hs, rfl⟩ := List.mem_map.mp hline
  refine OneLine.append (by decide) ?_
  rcases List.mem_append.mp hs with hs | hs
  · exact oneLine_of_mem_titleLines hs
  · exact h.comments s hs

/-- So is every line that closes the text. -/
lemma Plain.oneLine_of_mem_closing {c : Composition} (h : c.Plain) {line : String}
    (hline : line ∈ c.closing) : OneLine line := by
  unfold closing at hline
  split at hline
  · rw [List.mem_singleton.mp hline]
    exact h.program.oneLine
  · rcases List.mem_append.mp hline with hline | hline
    · obtain ⟨a, ha, rfl⟩ := List.mem_map.mp hline
      exact (h.sections a ha).oneLine
    · rcases List.mem_cons.mp hline with rfl | hline
      · decide
      · rw [List.mem_singleton.mp hline]
        exact h.program.oneLine

/-- The bar arrays are plain if the composition is, and can be written. -/
lemma Plain.plain_arrays {c : Composition} (h : c.Plain) {text : String}
    (hwrite : c.write = .ok text) : (∀ a ∈ c.arrays, a.Plain) ∧ c.text = text := by
  unfold write at hwrite
  split at hwrite
  · cases hwrite
  · rename_i hpitched
    simp only [List.any_eq_true, not_exists, not_and, Bool.not_eq_true] at hpitched
    exact ⟨fun a ha => ⟨h.arrays a ha, hpitched a ha⟩, Except.ok.inj hwrite⟩

/-- No line of a text holds a line feed. -/
lemma Plain.oneLine {c : Composition} (h : c.Plain) (harrays : ∀ a ∈ c.arrays, a.Plain) :
    ∀ line ∈ c.lines, OneLine line := by
  intro line hline
  rw [lines_eq] at hline
  simp only [List.mem_append, List.mem_cons, List.mem_map] at hline
  obtain hline | rfl | rfl | ⟨a, ha, rfl⟩ | rfl | hline := hline
  · exact h.oneLine_of_mem_heading hline
  · exact (OneLine.append (by decide) (oneLine_int _)).append (by decide)
  · decide
  · exact (harrays a ha).oneLine
  · decide
  · exact h.oneLine_of_mem_closing hline

/-- A text is cut back into its lines. -/
lemma lines_eq_of_text_eq {c d : Composition} (hc : ∀ line ∈ c.lines, OneLine line)
    (hd : ∀ line ∈ d.lines, OneLine line) (h : c.text = d.text) : c.lines = d.lines := by
  have hjoined : joinWith "\n" c.lines = joinWith "\n" d.lines := by
    have hlists := congrArg String.toList h
    simp only [text, String.toList_append, List.append_cancel_right_eq] at hlists
    exact String.toList_injective hlists
  have hcut : ∀ {e : Composition}, (∀ line ∈ e.lines, OneLine line) →
      splitChars (· == '\n') (joinWith "\n" e.lines).toList = e.lines.map String.toList := by
    intro e he
    refine splitChars_joinWith rfl (by decide) (by simp [lines_eq]) fun line hline x hx => ?_
    exact beq_false_of_ne fun heq => he line hline (heq ▸ hx)
  have hmap := hcut hc
  rw [hjoined, hcut hd] at hmap
  exact (List.map_injective_iff.mpr (fun _ _ => String.toList_injective) hmap).symm

/-- Lists of one text have the same content, if this holds of their elements. -/
lemma map_eq_map_of_forall {α β γ : Type} {f : α → β} {g : α → γ} {l m : List α}
    (h : ∀ x ∈ l, ∀ y ∈ m, f x = f y → g x = g y) (heq : l.map f = m.map f) :
    l.map g = m.map g := by
  induction l generalizing m with
  | nil => rw [List.map_eq_nil_iff.mp heq.symm]
  | cons x l ih =>
    cases m with
    | nil => cases heq
    | cons y m =>
      obtain ⟨hhead, hrest⟩ := List.cons.inj heq
      rw [List.map_cons, List.map_cons, h x List.mem_cons_self y List.mem_cons_self hhead,
        ih (fun x hx y hy => h x (List.mem_cons_of_mem _ hx) y (List.mem_cons_of_mem _ hy)) hrest]

/-- A declaration is no blank line. -/
lemma declaration_ne (name : String) (items : List String) : declaration name items ≠ "" := by
  simp [declaration]

/-- The lines at the end tell the sections and the program. -/
lemma Plain.eq_of_closing_eq {c d : Composition} (hc : c.Plain) (hd : d.Plain)
    (h : c.closing = d.closing) : c.sections = d.sections ∧ c.program = d.program := by
  have hnames : ∀ {e : Composition}, ∀ line ∈ e.sections.map SectionArray.text, ¬ line = "" := by
    intro e line hline
    obtain ⟨a, -, rfl⟩ := List.mem_map.mp hline
    exact declaration_ne _ _
  unfold closing at h
  split at h <;> rename_i hcEmpty <;> split at h <;> rename_i hdEmpty
  · rw [List.isEmpty_iff.mp hcEmpty, List.isEmpty_iff.mp hdEmpty]
    exact ⟨rfl, Program.eq_of_text_eq hc.program hd.program (List.singleton_inj.mp h)⟩
  · -- A single line is not several.
    have hlength := congrArg List.length h
    simp at hlength
  · have hlength := congrArg List.length h
    simp at hlength
  · obtain ⟨hsections, -, hprogram⟩ := append_cons_inj (· = "") hnames hnames rfl rfl h
    have hmap := map_eq_map_of_forall (g := id)
      (fun a ha b hb => SectionArray.eq_of_text_eq (hc.sections a ha) (hd.sections b hb)) hsections
    rw [List.map_id, List.map_id] at hmap
    exact ⟨hmap, Program.eq_of_text_eq hc.program hd.program (List.singleton_inj.mp hprogram)⟩

/-- Compositions that are written as the same text have the same tempo, the same bars under the same
names, the same sections and the same program, whatever their titles and comments are. -/
theorem music_eq_of_write_eq {c d : Composition} (hc : c.Plain) (hd : d.Plain) {text : String}
    (h : c.write = .ok text) (h' : d.write = .ok text) :
    c.cyclesPerMinute = d.cyclesPerMinute ∧
      c.arrays.map BarArray.content = d.arrays.map BarArray.content ∧
      c.sections = d.sections ∧ c.program = d.program := by
  obtain ⟨hcArrays, hcText⟩ := hc.plain_arrays h
  obtain ⟨hdArrays, hdText⟩ := hd.plain_arrays h'
  have hlines := lines_eq_of_text_eq (hc.oneLine hcArrays) (hd.oneLine hdArrays)
    (hcText.trans hdText.symm)
  rw [lines_eq, lines_eq] at hlines
  -- Comments begin with a slash, and the first line behind them does not.
  have hcomment : ∀ {e : Composition}, ∀ line ∈ e.heading, ¬ line.toList.head? ≠ some '/' := by
    intro e line hline
    obtain ⟨s, -, rfl⟩ := List.mem_map.mp hline
    simp [commentLine]
  have htempo : ∀ n : Int, ("setcpm(" ++ int n ++ ")").toList.head? ≠ some '/' := fun n => by simp
  obtain ⟨-, hcycles, hrest⟩ := append_cons_inj (fun line : String => line.toList.head? ≠ some '/')
    hcomment hcomment (htempo _) (htempo _) hlines
  -- The bar arrays end with a blank line.
  have hnames : ∀ {e : Composition}, ∀ line ∈ e.arrays.map BarArray.text, ¬ line = "" := by
    intro e line hline
    obtain ⟨a, -, rfl⟩ := List.mem_map.mp hline
    exact declaration_ne _ _
  obtain ⟨harrays, -, hclosing⟩ := append_cons_inj (· = "") hnames hnames rfl rfl
    (List.cons.inj hrest).2
  obtain ⟨hsections, hprogram⟩ := hc.eq_of_closing_eq hd hclosing
  refine ⟨?_, ?_, hsections, hprogram⟩
  · have hchars := congrArg String.toList hcycles
    simp only [String.toList_append, List.append_assoc, List.append_cancel_left_eq,
      List.append_cancel_right_eq] at hchars
    exact int_injective (String.toList_injective hchars)
  · exact map_eq_map_of_forall
      (fun a ha b hb => BarArray.content_eq_of_text_eq (hcArrays a ha) (hdArrays b hb)) harrays

/-- Two voices with sounds of their own, one of which plays a section. -/
def duet (title : String) (comments : List String) (index : Nat) : Composition :=
  { title, comments, cyclesPerMinute := -30
    arrays := [⟨"v0", [⟨index, [.note [-3, 2] 1, .rest 0]⟩]⟩, ⟨"v1", [⟨index, [.rest 1]⟩]⟩]
    sections := [⟨"v0_main", [⟨"v0", 0⟩, ⟨"v0", 0⟩]⟩]
    program :=
      { body := .stack [.voiced (.cat [.sectionRef "v0_main"]) "a\"b", .cat [.bar "v1" 0]]
        scale := "C:major", sound := some "\\" } }

/-- The two voices are plain, whatever their title and the number of their bars. -/
lemma plain_duet {title : String} {comments : List String} (index : Nat)
    (hcomments : ∀ s ∈ comments, OneLine s) : (duet title comments index).Plain := by
  refine ⟨?_, ?_, ⟨?_, (by decide : OneLine "C:major"), ?_⟩, hcomments⟩
  · simp only [duet, List.forall_mem_cons]
    exact ⟨by decide, by decide, by simp⟩
  · simp only [duet, List.forall_mem_cons]
    exact ⟨⟨by decide, by simp only [List.forall_mem_cons]; decide⟩, by simp⟩
  · refine .stack (List.forall_mem_cons.mpr ⟨?_, List.forall_mem_cons.mpr ⟨?_, by simp⟩⟩)
    · exact .voiced (.cat (List.forall_mem_cons.mpr ⟨.sectionRef (by decide), by simp⟩)) (by decide)
    · exact .cat (List.forall_mem_cons.mpr ⟨.bar (by decide), by simp⟩)
  · rintro sound ⟨⟩
    decide

/-- A title and a comment are written alike; the music is the same. -/
theorem music_eq_of_write_eq_titled :
    (duet "One" [] 0).write = .ok (duet "One" [] 0).text ∧
      (duet "" ["One"] 7).write = .ok (duet "One" [] 0).text ∧
      (duet "One" [] 0).cyclesPerMinute = (duet "" ["One"] 7).cyclesPerMinute ∧
      (duet "One" [] 0).arrays.map BarArray.content =
        (duet "" ["One"] 7).arrays.map BarArray.content ∧
      (duet "One" [] 0).sections = (duet "" ["One"] 7).sections ∧
      (duet "One" [] 0).program = (duet "" ["One"] 7).program := by
  have hwrite : (duet "One" [] 0).write = .ok (duet "One" [] 0).text := by cbv
  have hwrite' : (duet "" ["One"] 7).write = .ok (duet "One" [] 0).text := by cbv
  exact ⟨hwrite, hwrite', music_eq_of_write_eq (plain_duet 0 (by simp)) (plain_duet 7 (by decide))
    hwrite hwrite'⟩

end Composition

end PatternScore
