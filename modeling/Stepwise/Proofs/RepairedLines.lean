import Stepwise.Proofs.EditedLines
import Stepwise.Proofs.ReplacedTokens
import Stepwise.Proofs.SuppliedMarkers

/-!
# Lines that a fix puts in order

A fix that proposes a step replaces the content of a flagged line, and keeps the keyword as
typed. A fix that proposes a keyword puts it in front of the content. In both cases the
edited line is in order if its keyword is as long as it was meant to be: what follows are
then the words of the step, and they have the shape of its text.

That shape is the one thing that white space can spoil. Words are cut at all white space,
but a placeholder in angle brackets ends only at the plain sorts, so a text is compared
faithfully when it has no others.
-/
namespace Stepwise

/-- A text whose white space is all of the plain sorts. -/
def Text.PlainlySpaced (text : String) : Prop :=
  ∀ a ∈ text.toList, isBlank a = true → a ∈ [' ', '\t', '\n', '\x0c', '\r']

namespace Step

theorem mem_of_token_mem_pieces {cs inner : List Char} {d : Delimiter}
    (h : .token d inner ∈ pieces cs) : ∀ a ∈ inner, a ∈ cs ∧ d.admits a = true := by
  obtain ⟨before, after, hsplit⟩ := List.append_of_mem h
  have hstand := standBefore_append.mp (hsplit ▸ standBefore_pieces cs)
  intro a ha
  refine ⟨?_, hstand.2.1.1 a ha⟩
  rw [← textOf_pieces cs]
  exact List.mem_flatMap.mpr ⟨_, h, by simp [Piece.text, ha]⟩

theorem solidAngles_of_plainlySpaced {text : String} (h : Text.PlainlySpaced text) :
    SolidAngles text.toList := by
  intro inner hinner a ha
  obtain ⟨hmem, hadmits⟩ := mem_of_token_mem_pieces hinner a ha
  rw [← Bool.not_eq_true]
  intro hblank
  have hplain := h a hmem hblank
  -- plain white space ends a token in angle brackets
  have hbreaks : ∀ b ∈ [' ', '\t', '\n', '\x0c', '\r'], breaksAngle b = true := by
    simp [breaksAngle]
  rw [Delimiter.admits, hbreaks a hplain] at hadmits
  cases hadmits

end Step

/-- A line invokes a step when the words after its keyword are those of a text with the shape
of a registered key. -/
theorem Configuration.Reachable.invokedStep?_isSome {c : Configuration} (hc : c.Reachable)
    {line text : String} {head : List String} {found : Keyword}
    (hfind : c.lexicon.find? (Text.words line) = some found)
    (hwords : Text.words line = head ++ Text.words text) (hsize : found.size = head.length)
    (hcontent : Text.trim text ≠ "") (hspaced : Text.PlainlySpaced text)
    (hknown : ∃ s ∈ c.steps.all, Step.shape s.key = Step.shape text) :
    (c.invokedStep? line).isSome = true := by
  have hline : StepLine.of? c.lexicon line = some ⟨found, Text.joinWords (Text.words text)⟩ := by
    rw [StepLine.of?, hfind, Option.map_some, hsize, hwords, List.drop_left]
  have htext : (Text.joinWords (Text.words text)).isEmpty = false := by
    rw [← Bool.not_eq_true, String.isEmpty_iff]
    intro he
    have hnil := congrArg Text.words he
    rw [Text.words_joinWords fun _ => Text.isWord_of_mem_words] at hnil
    exact hcontent ((Text.words_eq_nil_iff text).mp hnil)
  have hshape := Step.shape_joinWords_words (Step.solidAngles_of_plainlySpaced hspaced)
  obtain ⟨s, hs, hsame⟩ := hknown
  simp only [Configuration.invokedStep?, hline, htext, Bool.false_eq_true, if_false]
  rw [hc.findStep?_eq_find?, hshape, List.find?_isSome]
  exact ⟨s, hs, beq_iff_eq.mpr hsame⟩

/-- The fixes of a flagged line. -/
inductive Configuration.FixOf (c : Configuration) (line : String) (m : Marker) : Fix → Prop
  | nearStep {step : StepLine} {s : StepDefinition} :
      StepLine.of? c.lexicon line = some step → s ∈ c.nearestSteps step.text →
      FixOf c line m ⟨"Replace with " ++ inQuotes s.label, [m],
        [⟨.ofContent line m.span.startLine 1,
          Text.joinWords ((Text.words line).take step.keyword.size) ++ " " ++ s.key⟩], false⟩
  | nearMiss {word : String} {k : Keyword} {e : Edit} :
      FixOf c line m
        ⟨"Replace " ++ inQuotes word ++ " with " ++ inQuotes k.capitalized, [m], [e], true⟩
  | missingKeyword {s : StepDefinition} : c.findStep? (Text.trim line) = some s →
      FixOf c line m ⟨"Insert keyword " ++ inQuotes s.keyword, [m],
        [⟨.onLine m.span.startLine (Text.minColumn line) (Text.minColumn line),
          s.keyword ++ " "⟩], true⟩

section
variable {c : Configuration} {line : String} {m : Marker} {f : Fix}

theorem Configuration.fixOf_of_mem (h : f ∈ c.lineFixes line m) : c.FixOf line m f := by
  unfold lineFixes at h
  split at h
  · rename_i step hstep
    obtain ⟨s, hs, rfl⟩ := List.mem_map.mp h
    exact .nearStep hstep hs
  · rcases List.mem_append.mp h with h | h
    · have h := Option.mem_toList.mp h
      unfold nearMissFix? at h
      split at h
      · cases h
      · obtain ⟨k, -, rfl⟩ := Option.map_eq_some_iff.mp h
        exact .nearMiss
    · have h := Option.mem_toList.mp h
      unfold missingKeywordFix? at h
      split at h
      · cases h
      · rename_i s hs
        split at h
        · cases h
        · cases h
          exact .missingKeyword hs

theorem Configuration.FixOf.markers (h : c.FixOf line m f) : f.markers = [m] := by
  cases h <;> rfl

/-- The title tells the sort of a fix and the step that it proposes. -/
theorem Configuration.FixOf.of_replaceTitle (h : c.FixOf line m f) {label : String}
    (htitle : f.title = "Replace with " ++ inQuotes label) :
    ∃ step s, StepLine.of? c.lexicon line = some step ∧ s ∈ c.nearestSteps step.text ∧
      s.label = label ∧ f.edits = [⟨.ofContent line m.span.startLine 1,
        Text.joinWords ((Text.words line).take step.keyword.size) ++ " " ++ s.key⟩] := by
  cases h with
  | @nearStep step s hstep hs =>
      refine ⟨step, s, hstep, hs, ?_, rfl⟩
      simpa [inQuotes, ← String.toList_inj] using htitle
  | nearMiss =>
      have hninth := congrArg (fun t : String => t.toList[8]?) htitle
      simp [inQuotes] at hninth
  | missingKeyword hs =>
      have hfirst := congrArg (fun t : String => t.toList.head?) htitle
      simp [inQuotes] at hfirst

theorem Configuration.FixOf.of_insertTitle (h : c.FixOf line m f) {keyword : String}
    (htitle : f.title = "Insert keyword " ++ inQuotes keyword) :
    ∃ s, c.findStep? (Text.trim line) = some s ∧ s.keyword = keyword ∧
      f.edits = [⟨.onLine m.span.startLine (Text.minColumn line) (Text.minColumn line),
        keyword ++ " "⟩] := by
  cases h with
  | @missingKeyword s hs =>
      have hkeyword : s.keyword = keyword := by
        simpa [inQuotes, ← String.toList_inj] using htitle
      exact ⟨s, hs, hkeyword, hkeyword ▸ rfl⟩
  | nearStep hstep hs =>
      have hfirst := congrArg (fun t : String => t.toList.head?) htitle
      simp [inQuotes] at hfirst
  | nearMiss =>
      have hfirst := congrArg (fun t : String => t.toList.head?) htitle
      simp [inQuotes] at hfirst

theorem Configuration.mem_documented_of_nearestSteps {text : String} {s : StepDefinition}
    (h : s ∈ c.nearestSteps text) : s ∈ c.steps.documented := by
  obtain ⟨e, he, rfl⟩ := List.mem_map.mp h
  have hsorted := List.mem_mergeSort.mp (List.mem_of_mem_take he)
  obtain ⟨s, hs, rfl⟩ := List.mem_map.mp (List.mem_of_mem_filter hsorted)
  exact hs

end

namespace Document
variable {c : Configuration} {d : Document} {m : Marker} {f : Fix} {i : Nat} {line : String}

def setLine (d : Document) (i : Nat) (line : String) : Document :=
  { d with lines := d.lines.set i line }

/-- A text that puts a line in order: it invokes a step, and the line has no marker in the
document with that text on it. -/
def Settles (c : Configuration) (d : Document) (i : Nat) (line : String) : Prop :=
  (c.invokedStep? line).isSome = true ∧
    ∀ m ∈ (d.setLine i line).diagnostics c, m.span.startLine ≠ i + 1

theorem settles_of_invokedStep? (hc : c.Reachable) (hi : i < d.lines.length)
    (h : (c.invokedStep? line).isSome = true) : d.Settles c i line := by
  refine ⟨h, fun m hm hstart => ?_⟩
  obtain ⟨known, hknown⟩ := Option.isSome_iff_exists.mp h
  obtain ⟨j, line', hline', hflagged, rfl⟩ := (mem_diagnostics_iff hc m).mp hm
  have hj : j = i := by
    change ((j + 1 : Nat) : Int) = i + 1 at hstart
    omega
  subst hj
  have hset : (d.setLine j line).lines[j]? = some line := List.getElem?_set_self hi
  rw [hset, Option.some.injEq] at hline'
  subst hline'
  exact not_flagged_of_invokedStep? hc hset hknown hflagged

theorem mem_lineFixes_of_mem_fixes {span : Span} {ms : List Marker}
    (hf : f ∈ d.fixes c span ms) (hm : m ∈ f.markers) :
    f ∈ c.lineFixes (d.line m.span.startLine) m := by
  rcases List.mem_append.mp hf with hf | hf
  · obtain ⟨m', -, hf⟩ := List.mem_flatMap.mp hf
    rw [(Configuration.fixOf_of_mem hf).markers, List.mem_singleton] at hm
    exact hm ▸ hf
  · obtain ⟨name, -, rfl⟩ := List.mem_map.mp hf
    cases hm

theorem line_add_one (h : d.lines[i]? = some line) : d.line (i + 1) = line := by
  have hlow : ¬(i : Int) + 1 < 1 := by omega
  have hposition : ((i : Int) + 1).toNat - 1 = i := by omega
  rw [Document.line, if_neg hlow, hposition, List.getD_eq_getElem?_getD, h, Option.getD_some]

/-- The content of a step line replaced by its keyword as typed and the key of a registered
step. -/
theorem settles_replaced (hc : c.Reachable) (hl : c.lexicon.Declared) (hi : i < d.lines.length)
    {step : StepLine} (hstep : StepLine.of? c.lexicon line = some step) {s : StepDefinition}
    (hs : s ∈ c.steps.all) (hkey : Text.trim s.key ≠ "") (hspaced : Text.PlainlySpaced s.key)
    {edited : String} (hedited : edited = Text.withContent line
      (Text.joinWords ((Text.words line).take step.keyword.size) ++ " " ++ s.key))
    {found : Keyword} (hfind : c.lexicon.find? (Text.words edited) = some found)
    (hsize : found.size = step.keyword.size) : d.Settles c i edited := by
  obtain ⟨k, hk, rfl⟩ := Option.map_eq_some_iff.mp hstep
  have htyped : ∀ w ∈ (Text.words line).take k.size, Text.IsWord w.toList :=
    fun w hw => Text.isWord_of_mem_words (List.mem_of_mem_take hw)
  have hwords : Text.words edited = (Text.words line).take k.size ++ Text.words s.key := by
    rw [hedited, Text.words_withContent, Text.words_append_space, Text.words_joinWords htyped]
  have hlength : found.size = ((Text.words line).take k.size).length := by
    rw [hsize, List.length_take, Nat.min_eq_left (Bounded.size_le_of_find? hl hk)]
  exact settles_of_invokedStep? hc hi
    (hc.invokedStep?_isSome hfind hwords hlength hkey hspaced ⟨s, hs, rfl⟩)

/-- A keyword put in front of a line that is the text of a registered step. -/
theorem settles_inserted (hc : c.Reachable) (hi : i < d.lines.length)
    (hcontent : Text.trim line ≠ "") {s : StepDefinition}
    (hs : c.findStep? (Text.trim line) = some s) (hspaced : Text.PlainlySpaced line)
    {edited keyword : String}
    (hedited : edited = Text.withContent line (keyword ++ " " ++ Text.trim line))
    {found : Keyword} (hfind : c.lexicon.find? (Text.words edited) = some found)
    (hsize : found.size = (Text.words keyword).length) : d.Settles c i edited := by
  have hwords : Text.words edited = Text.words keyword ++ Text.words (Text.trim line) := by
    rw [hedited, Text.words_withContent, Text.words_append_space]
  have htrim : Text.trim (Text.trim line) ≠ "" := by
    rw [Ne, ← Text.words_eq_nil_iff, Text.words_trim, Text.words_eq_nil_iff]
    exact hcontent
  have hplain : Text.PlainlySpaced (Text.trim line) := by
    intro a ha hblank
    refine hspaced a ?_ hblank
    rw [Text.line_eq hcontent]
    exact List.mem_append_left _ (List.mem_append_right _ ha)
  have hknown : ∃ s ∈ c.steps.all, Step.shape s.key = Step.shape (Text.trim line) := by
    rw [hc.findStep?_eq_find?] at hs
    exact ⟨s, List.mem_of_find?_eq_some hs, by simpa using List.find?_some hs⟩
  exact settles_of_invokedStep? hc hi
    (hc.invokedStep?_isSome hfind hwords hsize htrim hplain hknown)

/-- The fixes that carry a marker clear it. One that proposes a step replaces the content of
the line by the keyword as typed and the key of the step; one that proposes a keyword puts it
in front of the content. Each puts the line in order if the edited line opens with a keyword
of as many words as were typed or put there, and the white space of the text after it is
plain; the key must not be blank. -/
theorem fixes_settle_marker (hc : c.Reachable) (hl : c.lexicon.Declared) {span : Span}
    {ms : List Marker} (hm : m ∈ d.diagnostics c) (hf : f ∈ d.fixes c span ms)
    (hcarries : m ∈ f.markers) :
    ∃ (i : Nat) (line : String), d.lines[i]? = some line ∧ m.span.startLine = i + 1 ∧
      (∀ label, f.title = "Replace with " ++ inQuotes label →
        ∃ step s e, StepLine.of? c.lexicon line = some step ∧ s ∈ c.steps.documented ∧
          s.label = label ∧ f.edits = [e] ∧ e.span.startLine = i + 1 ∧ e.span.endLine = i + 1 ∧
          e.rewrite line = Text.withContent line
            (Text.joinWords ((Text.words line).take step.keyword.size) ++ " " ++ s.key) ∧
          ∀ found, c.lexicon.find? (Text.words (e.rewrite line)) = some found →
            found.size = step.keyword.size → Text.trim s.key ≠ "" →
            Text.PlainlySpaced s.key → d.Settles c i (e.rewrite line)) ∧
      (∀ keyword, f.title = "Insert keyword " ++ inQuotes keyword →
        ∃ s e, c.findStep? (Text.trim line) = some s ∧ s.keyword = keyword ∧ f.edits = [e] ∧
          e.span.startLine = i + 1 ∧ e.span.endLine = i + 1 ∧
          e.rewrite line = Text.withContent line (keyword ++ " " ++ Text.trim line) ∧
          ∀ found, c.lexicon.find? (Text.words (e.rewrite line)) = some found →
            found.size = (Text.words keyword).length →
            Text.PlainlySpaced line → d.Settles c i (e.rewrite line)) := by
  obtain ⟨i, line, hline, hcontent, rfl⟩ := exists_line_of_mem_diagnostics hm
  have hi : i < d.lines.length := (List.getElem?_eq_some_iff.mp hline).1
  have hfix := Configuration.fixOf_of_mem (mem_lineFixes_of_mem_fixes hf hcarries)
  have hnumber : (Marker.flag c.syntaxMessage (i + 1) line).span.startLine = (i : Int) + 1 := rfl
  rw [hnumber, line_add_one hline] at hfix
  refine ⟨i, line, hline, hnumber, fun label htitle => ?_, fun keyword htitle => ?_⟩
  · obtain ⟨step, s, hstep, hs, hlabel, hedits⟩ := hfix.of_replaceTitle htitle
    have hdocumented := Configuration.mem_documented_of_nearestSteps hs
    have hrewrite := Edit.rewrite_ofContent hcontent (i + 1) 1
      (Text.joinWords ((Text.words line).take step.keyword.size) ++ " " ++ s.key)
    exact ⟨step, s, _, hstep, hdocumented, hlabel, hedits, rfl, rfl, hrewrite,
      fun found hfind hsize hkey hspaced => settles_replaced hc hl hi hstep
        (List.mem_of_mem_filter hdocumented) hkey hspaced hrewrite hfind hsize⟩
  · obtain ⟨s, hs, hkeyword, hedits⟩ := hfix.of_insertTitle htitle
    have hrewrite := Text.replaceColumns_content hcontent (List.nil_append _).symm (keyword ++ " ")
    rw [String.ofList_toList] at hrewrite
    exact ⟨s, _, hs, hkeyword, hedits, rfl, rfl, hrewrite,
      fun found hfind hsize hspaced =>
        settles_inserted hc hi hcontent hs hspaced hrewrite hfind hsize⟩

/-- A step to propose for a line that is nearly its text. -/
def countStep : StepDefinition :=
  { StepDefinition.blank with key := "I see <n>", label := "see", keyword := "Given",
                              documentation := "d" }

/-- A mistyped step line and the text of the step without its keyword. -/
def countDocument : Document := ⟨"inmemory:a", 1, 1, ["  Given I saw <n> ", "I see 5"]⟩

/-- Both lines are put in order. -/
theorem fixes_settle_marker_see :
    let c := ((Configuration.ofStep countStep).withMetatags []).withDirectives []
    let replaced : Fix := ⟨"Replace with \"see\"", [⟨8, "Syntax error", ⟨1, 3, 1, 18⟩⟩],
      [⟨⟨1, 3, 1, 18⟩, "Given I see <n>"⟩], false⟩
    let inserted : Fix := ⟨"Insert keyword \"Given\"", [⟨8, "Syntax error", ⟨2, 1, 2, 8⟩⟩],
      [⟨⟨2, 1, 2, 1⟩, "Given "⟩], true⟩
    countDocument.fixes c .unset [] = [replaced, inserted] ∧
      countDocument.Settles c 0 "  Given I see <n> " ∧
      countDocument.Settles c 1 "Given I see 5" := by
  intro c replaced inserted
  have hc : c.Reachable := .withDirectives _ (.withMetatags _ (Configuration.reachable_ofStep _))
  have hl : c.lexicon.Declared := Configuration.declared_ofStep countStep
  have hdiagnostics : countDocument.diagnostics c =
      [⟨8, "Syntax error", ⟨1, 3, 1, 18⟩⟩, ⟨8, "Syntax error", ⟨2, 1, 2, 8⟩⟩] := by
    decide +kernel
  have hfixes : countDocument.fixes c .unset [] = [replaced, inserted] := by decide +kernel
  have hplain : ∀ text : String, (text.toList.all fun a => !Text.isBlank a || a == ' ') = true →
      Text.PlainlySpaced text := by
    intro text hall a ha hblank
    have hone := List.all_eq_true.mp hall a ha
    rw [hblank, Bool.not_true, Bool.false_or, beq_iff_eq] at hone
    exact hone ▸ List.mem_cons_self
  refine ⟨hfixes, ?_, ?_⟩
  · obtain ⟨i, line, hline, hnumber, hreplace, -⟩ := fixes_settle_marker hc hl
      (hdiagnostics ▸ List.mem_cons_self) (hfixes ▸ List.mem_cons_self)
      (List.mem_singleton_self _)
    obtain rfl : i = 0 := by
      change (1 : Int) = i + 1 at hnumber
      omega
    obtain rfl : "  Given I saw <n> " = line := Option.some.inj hline
    obtain ⟨step, s, e, hstep, hs, -, hedits, -, -, -, hsettles⟩ := hreplace "see" rfl
    obtain rfl : s = countStep := List.mem_singleton.mp hs
    obtain rfl : ⟨⟨1, 3, 1, 18⟩, "Given I see <n>"⟩ = e := List.singleton_inj.mp hedits
    have hknown : StepLine.of? c.lexicon "  Given I saw <n> " =
        some ⟨Configuration.given, "I saw <n>"⟩ := by decide +kernel
    obtain rfl : ⟨Configuration.given, "I saw <n>"⟩ = step :=
      Option.some.inj (hknown.symm.trans hstep)
    have hedited : Edit.rewrite ⟨⟨1, 3, 1, 18⟩, "Given I see <n>"⟩ "  Given I saw <n> " =
        "  Given I see <n> " := by decide +kernel
    rw [hedited] at hsettles
    exact hsettles Configuration.given (by decide +kernel) rfl (by decide +kernel)
      (hplain _ (by decide +kernel))
  · obtain ⟨i, line, hline, hnumber, -, hinsert⟩ := fixes_settle_marker hc hl
      (hdiagnostics ▸ List.mem_cons_of_mem _ List.mem_cons_self)
      (hfixes ▸ List.mem_cons_of_mem _ List.mem_cons_self) (List.mem_singleton_self _)
    obtain rfl : i = 1 := by
      change (2 : Int) = i + 1 at hnumber
      omega
    obtain rfl : "I see 5" = line := Option.some.inj hline
    obtain ⟨s, e, -, -, hedits, -, -, -, hsettles⟩ := hinsert "Given" rfl
    obtain rfl : ⟨⟨2, 1, 2, 1⟩, "Given "⟩ = e := List.singleton_inj.mp hedits
    have hedited : Edit.rewrite ⟨⟨2, 1, 2, 1⟩, "Given "⟩ "I see 5" = "Given I see 5" := by
      decide +kernel
    rw [hedited] at hsettles
    exact hsettles Configuration.given (by decide +kernel) (by decide +kernel)
      (hplain _ (by decide +kernel))

end Document
end Stepwise
