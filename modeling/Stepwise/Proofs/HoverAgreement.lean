import Mathlib.Data.List.Pairwise
import Stepwise.Proofs.RepairedLines
import Stepwise.Proofs.ScannedTokens

/-!
# Hovers and markers

A hover reads its line alone, while the markers of a document depend on the class that the
line has among the others. The two agree all the same. A line that invokes a step is in order
wherever it stands, and on a line of the class of steps the absence of a hover, away from the
variables, is the presence of a marker.

The hover of a variable stands on one placeholder and the hover of a step on the content of
its line. Which of the two a hover is can be read off its text.
-/
namespace Stepwise

def Span.textOn (s : Span) (line : String) : String :=
  String.ofList ((line.toList.drop (s.startColumn.toNat - 1)).take
    (s.endColumn.toNat - s.startColumn.toNat))

/-- The placeholder at a column names a variable. -/
def Configuration.NamesVariable (c : Configuration) (line : String) (column : Int) : Prop :=
  ∃ p v, Step.placeholderAt? line column = some p ∧ c.vars.find? p.inner = some v

section
variable {c : Configuration} {line : String} {s : StepDefinition}

/-- Only a line with content invokes a step. -/
theorem Configuration.trim_ne_empty_of_invokedStep? (h : c.invokedStep? line = some s) :
    Text.trim line ≠ "" := by
  obtain ⟨step, hstep, htext, -⟩ := Configuration.invokedStep?_eq_some_iff.mp h
  obtain ⟨k, -, rfl⟩ := Option.map_eq_some_iff.mp hstep
  intro he
  refine htext ?_
  rw [(Text.words_eq_nil_iff line).mpr he, List.drop_nil]
  rfl

end

namespace Step
variable {line : String} {p : Placeholder}

theorem mem_of_placeholderAt? {column : Int} (h : placeholderAt? line column = some p) :
    p ∈ placeholders line ∧ (p.start : Int) ≤ column ∧ column ≤ (p.stop : Int) := by
  have hfind : (placeholders line).find? (fun q => q.touches column) = some p := h
  have htouches := List.find?_some hfind
  exact ⟨List.mem_of_find?_eq_some hfind, Placeholder.touches_iff.mp htouches⟩

/-- A placeholder is the text in its columns. -/
theorem textOn_placeholder (h : p ∈ placeholders line) (number : Int) :
    (Span.onLine number p.start p.stop).textOn line = p.text := by
  obtain ⟨before, after, hline, hstart, hstop, -⟩ :=
    (isScan_iff.mpr rfl : IsScan 1 line.toList (placeholders line)).tokens p h
  have hdrop : ((p.start : Int).toNat - 1) = before.length := by
    rw [Int.toNat_natCast, hstart]
    omega
  have htake : (p.stop : Int).toNat - (p.start : Int).toNat = p.text.toList.length := by
    rw [Int.toNat_natCast, Int.toNat_natCast, hstop, String.length_toList]
    omega
  simp only [Span.textOn, Span.onLine, hdrop, htake]
  rw [hline, List.append_assoc, List.drop_left, List.take_left, String.ofList_toList]

/-- The other placeholders of a line stand outside the columns of one. -/
theorem placeholder_apart {q : Placeholder} (hp : p ∈ placeholders line)
    (hq : q ∈ placeholders line) (hne : q ≠ p) : q.stop ≤ p.start ∨ p.stop ≤ q.start := by
  have hscan : IsScan 1 line.toList (placeholders line) := isScan_iff.mpr rfl
  have hapart : (placeholders line).Pairwise fun a b => a.stop ≤ b.start ∨ b.stop ≤ a.start :=
    hscan.apart.imp .inl
  have : Std.Symm fun a b : Placeholder => a.stop ≤ b.start ∨ b.stop ≤ a.start :=
    ⟨fun _ _ h => h.symm⟩
  exact hapart.forall hq hp hne

end Step

/-! ## The two sorts of hover -/

/-- The text of a hover tells its sort. -/
theorem StepDefinition.description_ne (s : StepDefinition) (v : Variable) :
    s.description ≠ [v.description] := by
  intro h
  have hhead := congrArg List.head? h
  rw [StepDefinition.description, List.append_assoc, List.singleton_append, List.head?_cons,
    List.head?_cons, Option.some.injEq] at hhead
  have hfirst := congrArg (fun t : String => t.toList.head?) hhead
  simp [Variable.description] at hfirst

namespace Document
variable {c : Configuration} {d : Document} {number column : Int} {hover : Hover}

theorem hover?_eq_none_iff (hnone : ¬c.NamesVariable (d.line number) column) :
    d.hover? c number column = none ↔ c.invokedStep? (d.line number) = none := by
  have hvariable : Hover.ofVariable? c (d.line number) number column = none := by
    rw [Hover.ofVariable?, Option.bind_eq_none_iff]
    intro p hp
    rw [Option.map_eq_none_iff, Option.eq_none_iff_forall_ne_some]
    exact fun v hv => hnone ⟨p, v, hp, hv⟩
  rw [Document.hover?, hvariable, Option.none_or, Hover.ofStep?, Option.map_eq_none_iff]

theorem hover?_cases (h : d.hover? c number column = some hover) :
    (∃ p v, Step.placeholderAt? (d.line number) column = some p ∧
      c.vars.find? p.inner = some v ∧
      hover = ⟨.onLine number p.start p.stop, [v.description]⟩) ∨
    ∃ s, c.invokedStep? (d.line number) = some s ∧
      hover = ⟨.ofContent (d.line number) number column, s.description⟩ := by
  rcases Option.or_eq_some_iff.mp h with h | ⟨-, h⟩
  · obtain ⟨p, hp, h⟩ := Option.bind_eq_some_iff.mp h
    obtain ⟨v, hv, rfl⟩ := Option.map_eq_some_iff.mp h
    exact .inl ⟨p, v, hp, hv, rfl⟩
  · obtain ⟨s, hs, rfl⟩ := Option.map_eq_some_iff.mp h
    exact .inr ⟨s, hs, rfl⟩

/-! ## Markers -/

theorem not_marked_of_invokedStep? {s : StepDefinition}
    (hs : c.invokedStep? (d.line number) = some s) {m : Marker} (hm : m ∈ d.diagnostics c) :
    m.span.startLine ≠ number := by
  rintro rfl
  obtain ⟨i, line, hline, -, rfl⟩ := exists_line_of_mem_diagnostics hm
  have hnumber : (Marker.flag c.syntaxMessage (i + 1) line).span.startLine = (i : Int) + 1 := rfl
  rw [hnumber, line_add_one hline] at hs
  obtain ⟨cls, hcls, -⟩ := lineStep_at (c := c) hline
  have haccepts := (exists_marker_iff hline hcls).mp ⟨_, hm, hnumber⟩
  rw [accepts_of_invokedStep? hline hcls hs] at haccepts
  cases haccepts

/-- Hovers and markers agree on every line. A hover that shows a step stands on the content
of a line without a marker and shows the step of the text after the keyword. A step line has
a marker exactly when it has no hover at any column that is not on a variable. A hover that
shows a variable stands on a single placeholder, which the column touches. -/
theorem hover_agrees_with_markers (c : Configuration) (d : Document) (number : Int) :
    let line := d.line number
    (∀ column hover, d.hover? c number column = some hover →
      (∀ s : StepDefinition, hover.blocks = s.description →
        (∀ m ∈ d.diagnostics c, m.span.startLine ≠ number) ∧
        (∃ step found, StepLine.of? c.lexicon line = some step ∧
          c.findStep? step.text = some found ∧ hover.blocks = found.description) ∧
        hover.span = .onLine number (Text.minColumn line) (Text.maxColumn line) ∧
        hover.span.textOn line = Text.trim line) ∧
      (∀ v : Variable, hover.blocks = [v.description] →
        ∃ p ∈ Step.placeholders line, ∃ found, c.vars.find? p.inner = some found ∧
          hover.blocks = [found.description] ∧
          hover.span = .onLine number p.start p.stop ∧ hover.span.textOn line = p.text ∧
          hover.span.startColumn ≤ column ∧ column ≤ hover.span.endColumn ∧
          ∀ q ∈ Step.placeholders line, q ≠ p → q.stop ≤ p.start ∨ p.stop ≤ q.start)) ∧
    ∀ i : Nat, number = i + 1 → d.classAt? c i = some .step →
      ((∃ m ∈ d.diagnostics c, m.span.startLine = number) ↔
        ∀ column, ¬c.NamesVariable line column → d.hover? c number column = none) := by
  intro line
  refine ⟨fun column hover hhover => ⟨fun s hblocks => ?_, fun v hblocks => ?_⟩,
    fun i hi hcls => ?_⟩
  · rcases hover?_cases hhover with ⟨p, v, -, -, rfl⟩ | ⟨found, hfound, rfl⟩
    · exact absurd hblocks.symm (s.description_ne v)
    · have hcontent := Configuration.trim_ne_empty_of_invokedStep? hfound
      obtain ⟨step, hstep, -, hshape⟩ := Configuration.invokedStep?_eq_some_iff.mp hfound
      have hspan := Span.ofContent_eq hcontent number column
      refine ⟨fun m hm => not_marked_of_invokedStep? hfound hm,
        ⟨step, found, hstep, hshape, rfl⟩, hspan, ?_⟩
      obtain ⟨-, -, -, htext⟩ := Text.columns_span_content hcontent
      simp only [hspan, Span.textOn, Span.onLine, Int.toNat_natCast, line, htext,
        String.ofList_toList]
  · rcases hover?_cases hhover with ⟨p, found, hp, hfound, rfl⟩ | ⟨s, -, rfl⟩
    · obtain ⟨hmem, hstart, hstop⟩ := Step.mem_of_placeholderAt? hp
      exact ⟨p, hmem, found, hfound, rfl, rfl, Step.textOn_placeholder hmem number, hstart, hstop,
        fun q hq hne => Step.placeholder_apart hmem hq hne⟩
    · exact absurd hblocks (s.description_ne v)
  · obtain ⟨line', hline⟩ : ∃ line', d.lines[i]? = some line' := by
      rw [classAt?_eq] at hcls
      obtain ⟨line', hline, -⟩ := Option.map_eq_some_iff.mp hcls
      exact ⟨line', hline⟩
    obtain rfl : line = line' := by rw [← line_add_one hline, ← hi]
    rw [hi, exists_marker_iff hline hcls, Configuration.accepts, Option.isSome_eq_false_iff,
      Option.isNone_iff_eq_none, ← hi]
    constructor
    · exact fun h column hnone => (hover?_eq_none_iff hnone).mpr h
    · -- no placeholder begins at column 0
      intro h
      have hnone : ¬c.NamesVariable line 0 := by
        rintro ⟨p, v, hp, -⟩
        obtain ⟨hmem, hstart, -⟩ := Step.mem_of_placeholderAt? hp
        have hfirst : 1 ≤ p.start := Step.le_start_of_mem hmem
        omega
      exact (hover?_eq_none_iff hnone).mp (h 0 hnone)

/-- A step line with a variable on it, and a step line that invokes nothing. -/
def seenDocument : Document := ⟨"inmemory:a", 1, 1, ["  Given I see <n> ", "Given I saw"]⟩

/-- The first line shows a step and a variable and has no marker, the second line shows nothing
and has one. -/
theorem hover_agrees_with_markers_see :
    let c := (Configuration.ofStep countStep).withVariables (.ofList [⟨"v", "n", "5"⟩])
    let step : Hover := ⟨⟨1, 3, 1, 18⟩, ["**see**", "d"]⟩
    let value : Hover := ⟨⟨1, 15, 1, 18⟩, ["\x60n\x60 = 5"]⟩
    seenDocument.hover? c 1 3 = some step ∧
      (∀ m ∈ seenDocument.diagnostics c, m.span.startLine ≠ 1) ∧
      step.span.textOn "  Given I see <n> " = "Given I see <n>" ∧
      seenDocument.hover? c 1 16 = some value ∧
      (∃ p ∈ Step.placeholders "  Given I see <n> ",
        value.span.textOn "  Given I see <n> " = p.text) ∧
      seenDocument.classAt? c 1 = some .step ∧
      ((∃ m ∈ seenDocument.diagnostics c, m.span.startLine = 2) ↔
        ∀ column, ¬c.NamesVariable "Given I saw" column →
          seenDocument.hover? c 2 column = none) := by
  intro c step value
  have hstep : seenDocument.hover? c 1 3 = some step := by decide +kernel
  have hvalue : seenDocument.hover? c 1 16 = some value := by decide +kernel
  have hclass : seenDocument.classAt? c 1 = some .step := by decide +kernel
  obtain ⟨hfirst, -⟩ := hover_agrees_with_markers c seenDocument 1
  obtain ⟨hunmarked, -, -, hcontent⟩ := (hfirst 3 step hstep).1 countStep (by decide +kernel)
  obtain ⟨p, hp, -, -, -, -, hplaceholder, -⟩ :=
    (hfirst 16 value hvalue).2 ⟨"v", "n", "5"⟩ (by decide +kernel)
  obtain ⟨-, hsecond⟩ := hover_agrees_with_markers c seenDocument 2
  exact ⟨hstep, hunmarked, hcontent, hvalue, ⟨p, hp, hplaceholder⟩, hclass,
    hsecond 1 (by decide) hclass⟩

end Document
end Stepwise
