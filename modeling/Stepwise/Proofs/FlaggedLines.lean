import Mathlib.Data.List.Basic
import Stepwise.Document.Diagnostics
import Stepwise.Proofs.LineContent
import Stepwise.Proofs.LineReading
import Stepwise.Proofs.RegistryReplacement
import Stepwise.Proofs.StepLookup

/-!
# Which lines are flagged

The markers of a document are compared with the reading of its lines. A line gets
one marker when its class is unknown, and when it is a step line without a
registered step. The marker covers the content of the line, which is never empty.

Steps are found by their shapes. This is where the index of shapes matters, so the
configuration is one that the operations can build, as that of every run is.
-/
namespace Stepwise

/-- A step line with nothing after its keyword, or with a text of no registered shape. -/
def Configuration.Unregistered (c : Configuration) (t : String) : Prop :=
  ∃ s, StepLine.of? c.lexicon t = some s ∧
    (s.text = "" ∨ ∀ known ∈ c.steps.all, Step.shape known.key ≠ Step.shape s.text)

/-- The lines of a document that are not in order. -/
def Document.Flagged (c : Configuration) (d : Document) (i : Nat) (line : String) : Prop :=
  d.classAt? c i = some .unknown ∨
    (d.classAt? c i = some .step ∧ c.Unregistered (Text.trim line))

theorem StepLine.of?_trim (lexicon : Lexicon) (line : String) :
    StepLine.of? lexicon (Text.trim line) = StepLine.of? lexicon line := by
  simp only [StepLine.of?, Text.words_trim]

theorem Configuration.invokedStep?_eq_some_iff {c : Configuration} {line : String}
    {s : StepDefinition} : c.invokedStep? line = some s ↔
      ∃ step, StepLine.of? c.lexicon line = some step ∧ step.text ≠ "" ∧
        c.findStep? step.text = some s := by
  unfold Configuration.invokedStep?
  cases StepLine.of? c.lexicon line with
  | none => simp
  | some step => simp

theorem Configuration.Reachable.invokedStep?_eq_none_iff {c : Configuration} (hc : c.Reachable)
    {line : String} {s : StepLine} (hs : StepLine.of? c.lexicon (Text.trim line) = some s) :
    c.invokedStep? line = none ↔ c.Unregistered (Text.trim line) := by
  have hsame : c.invokedStep? line = if s.text.isEmpty then none else c.findStep? s.text := by
    rw [Configuration.invokedStep?, ← StepLine.of?_trim, hs]
  rw [hsame, Configuration.Unregistered]
  constructor
  · intro h
    refine ⟨s, hs, ?_⟩
    split at h
    · rename_i he
      exact .inl (String.isEmpty_iff.mp he)
    · exact .inr ((hc.findStep?_eq_none_iff s.text).mp h)
  · rintro ⟨s', hs', h⟩
    rw [hs, Option.some.injEq] at hs'
    subst hs'
    split
    · rfl
    · rename_i he
      rw [String.isEmpty_iff] at he
      exact (hc.findStep?_eq_none_iff s.text).mpr (h.resolve_left he)

namespace Document
variable {c : Configuration} {d : Document} {i : Nat} {line : String}

/-- A line of the class of steps opens with a step keyword. -/
theorem stepLine_of_classAt? (h : d.lines[i]? = some line) (hs : d.classAt? c i = some .step) :
    ∃ s, StepLine.of? c.lexicon (Text.trim line) = some s := by
  rcases classAt?_cases (c := c) h with
    ⟨_, hc⟩ | ⟨_, ⟨own, ho, hc⟩ | ⟨_, ⟨_, _, hc⟩ | ⟨_, hc⟩⟩⟩ <;> rw [hs] at hc <;> cases hc
  cases ho with
  | step _ _ _ _ hs => exact ⟨_, hs⟩

theorem accepts_eq_false_iff (hc : c.Reachable) (h : d.lines[i]? = some line) {cls : LineClass}
    (hcls : d.classAt? c i = some cls) : c.accepts cls line = false ↔ d.Flagged c i line := by
  rw [Flagged, hcls]
  cases cls with
  | unknown => exact ⟨fun _ => .inl rfl, fun _ => rfl⟩
  | step =>
      obtain ⟨s, hs⟩ := stepLine_of_classAt? h hcls
      rw [← hc.invokedStep?_eq_none_iff hs, Configuration.accepts, Option.isSome_eq_false_iff,
        Option.isNone_iff_eq_none]
      simp
  | _ => simp [Configuration.accepts]

/-- A line without content is blank, or docstring. -/
theorem trim_ne_empty_of_classAt? (h : d.lines[i]? = some line) {cls : LineClass}
    (hcls : d.classAt? c i = some cls) (hblank : cls ≠ .blank) (hdoc : cls ≠ .docString) :
    Text.trim line ≠ "" := by
  intro he
  by_cases hd : d.InDocString i
  · rw [(classAt?_eq_docString_iff h).mpr hd, Option.some.injEq] at hcls
    exact hdoc hcls.symm
  · rw [classAt?_of_ownClass h hd (.blank he), Option.some.injEq] at hcls
    exact hblank hcls.symm

/-- What a line is flagged for, it has by its content. -/
theorem Flagged.trim_ne_empty (hf : d.Flagged c i line) (h : d.lines[i]? = some line) :
    Text.trim line ≠ "" := by
  rcases hf with hf | ⟨hf, _⟩ <;> exact trim_ne_empty_of_classAt? h hf nofun nofun

/-- The item at a position of the classified lines. -/
theorem getElem?_classified_iff (cls : LineClass) (n : Nat) :
    ((d.classes c).zip d.numbered)[i]? = some (cls, n, line) ↔
      d.lines[i]? = some line ∧ d.classAt? c i = some cls ∧ n = i + 1 := by
  rw [List.getElem?_zip_eq_some, numbered, List.getElem?_mapIdx, classAt?]
  constructor
  · rintro ⟨hc, hl⟩
    rw [Option.map_eq_some_iff] at hl
    obtain ⟨line', hl, he⟩ := hl
    cases he
    exact ⟨hl, hc, rfl⟩
  · rintro ⟨hl, hc, rfl⟩
    exact ⟨hc, by rw [hl]; rfl⟩

/-- Whether a line has a marker is a matter of its class and its text. -/
theorem exists_marker_iff (h : d.lines[i]? = some line) {cls : LineClass}
    (hcls : d.classAt? c i = some cls) :
    (∃ m ∈ d.diagnostics c, m.span.startLine = i + 1) ↔ c.accepts cls line = false := by
  constructor
  · rintro ⟨m, hm, hnumber⟩
    obtain ⟨⟨cls', n, line'⟩, hmem, hm⟩ := List.mem_filterMap.mp hm
    obtain ⟨j, hj⟩ := List.mem_iff_getElem?.mp hmem
    obtain ⟨hline, hcls', rfl⟩ := (getElem?_classified_iff cls' n).mp hj
    dsimp only at hm
    split at hm
    · cases hm
    · rename_i haccepts
      cases hm
      have hji : j = i := by
        change ((j + 1 : Nat) : Int) = i + 1 at hnumber
        omega
      subst hji
      rw [h, Option.some.injEq] at hline
      rw [hcls, Option.some.injEq] at hcls'
      rw [hcls', hline]
      exact Bool.not_eq_true _ ▸ haccepts
  · intro haccepts
    refine ⟨.flag c.syntaxMessage (i + 1) line, List.mem_filterMap.mpr ⟨(cls, i + 1, line), ?_, ?_⟩,
      rfl⟩
    · exact List.mem_iff_getElem?.mpr ⟨i, (getElem?_classified_iff cls _).mpr ⟨h, hcls, rfl⟩⟩
    · simp only [haccepts, Bool.false_eq_true, if_false]

theorem mem_diagnostics_iff (hc : c.Reachable) (m : Marker) :
    m ∈ d.diagnostics c ↔ ∃ i line, d.lines[i]? = some line ∧ d.Flagged c i line ∧
      m = .flag c.syntaxMessage (i + 1) line := by
  rw [diagnostics, List.mem_filterMap]
  constructor
  · rintro ⟨⟨cls, n, line⟩, hmem, hm⟩
    obtain ⟨i, hi⟩ := List.mem_iff_getElem?.mp hmem
    obtain ⟨hl, hcls, rfl⟩ := (getElem?_classified_iff cls n).mp hi
    dsimp only at hm
    split at hm
    · cases hm
    · rename_i ha
      rw [Bool.not_eq_true] at ha
      exact ⟨i, line, hl, (accepts_eq_false_iff hc hl hcls).mp ha, (Option.some.inj hm).symm⟩
  · rintro ⟨i, line, hl, hf, rfl⟩
    obtain ⟨cls, hcls, _⟩ := lineStep_at (c := c) hl
    refine ⟨(cls, i + 1, line), ?_, ?_⟩
    · exact List.mem_iff_getElem?.mpr ⟨i, (getElem?_classified_iff cls (i + 1)).mpr ⟨hl, hcls, rfl⟩⟩
    · simp only [(accepts_eq_false_iff hc hl hcls).mpr hf, Bool.false_eq_true, if_false]

/-- Markers come in the order of their lines, one to a line. -/
theorem diagnostics_pairwise (c : Configuration) (d : Document) :
    (d.diagnostics c).Pairwise fun a b => a.span.startLine < b.span.startLine := by
  have hline : ∀ {cls n line m}, (if c.accepts cls line then none
      else some (Marker.flag c.syntaxMessage n line)) = some m → m.span.startLine = n := by
    intro cls n line m hm
    split at hm
    · cases hm
    · cases hm
      rfl
  rw [diagnostics, List.pairwise_filterMap, List.pairwise_iff_getElem]
  rintro i j hi hj hij m hm m' hm'
  have hin := (getElem?_classified_iff _ _).mp (List.getElem?_eq_getElem hi)
  have hjn := (getElem?_classified_iff _ _).mp (List.getElem?_eq_getElem hj)
  rw [hline hm, hline hm', hin.2.2, hjn.2.2]
  omega

/-- The classes and markers of a document as its lines read. A line is docstring when a
docstring opens at it or holds it. Outside docstrings a line with a class of its own has
that class, and a free line is description exactly below the heading of a feature or a
rule, with no heading or step between, when it does not open with a mistyped step keyword;
else it is unknown. Exactly the flagged lines have markers, each one marker, in the order
of the lines. A marker stays on its line and spans exactly the content of the line. -/
theorem checkSyntax_reads_document (c : Configuration) (hc : c.Reachable) (d : Document) :
    (∀ i line, d.lines[i]? = some line →
      (d.classAt? c i = some .docString ↔ d.InDocString i) ∧
      (¬d.InDocString i →
        (∀ own, OwnClass c (Text.trim line) own → d.classAt? c i = some own) ∧
        ((∀ own, ¬OwnClass c (Text.trim line) own) →
          (d.classAt? c i = some .description ↔
            d.Described c i ∧ c.opensWithNearMiss (Text.trim line) = false) ∧
          (d.classAt? c i = some .unknown ↔
            ¬(d.Described c i ∧ c.opensWithNearMiss (Text.trim line) = false))))) ∧
    (d.diagnostics c).Pairwise (fun a b => a.span.startLine < b.span.startLine) ∧
    (∀ m, m ∈ d.diagnostics c ↔ ∃ i line, d.lines[i]? = some line ∧ d.Flagged c i line ∧
      m = ⟨Severity.error, c.syntaxMessage,
        ⟨i + 1, Text.minColumn line, i + 1, Text.maxColumn line⟩⟩) ∧
    (∀ i line, d.lines[i]? = some line → d.Flagged c i line →
      1 ≤ Text.minColumn line ∧ Text.minColumn line < Text.maxColumn line ∧
      Text.maxColumn line ≤ line.length + 1 ∧
      (line.toList.drop (Text.minColumn line - 1)).take
        (Text.maxColumn line - Text.minColumn line) = (Text.trim line).toList) := by
  refine ⟨?_, diagnostics_pairwise c d, fun m => mem_diagnostics_iff hc m, ?_⟩
  · intro i line h
    refine ⟨classAt?_eq_docString_iff h, fun hd => ⟨?_, ?_⟩⟩
    · intro own ho
      exact classAt?_of_ownClass h hd ho
    · intro hno
      exact classAt?_of_free h hd hno
  · intro i line h hf
    exact Text.columns_span_content (hf.trim_ne_empty h)

/-- Below the heading of a feature words are description, and below a step they are unknown.
Of the two steps outside the docstring the registered one is in order. -/
theorem checkSyntax_reads_document_feature :
    let c := (Configuration.initial.withLexicon (.ofPhrases
        [⟨"", .feature, ["Feature"]⟩, ⟨"", .step, ["Given"]⟩])).withSteps
      (.ofList [{ StepDefinition.blank with key := "I wait" }])
    let d : Document := ⟨"inmemory:a", 1, 1, ["Feature: a", "some words", "Given I wait",
      "  Given I go ", "more words", "\"\"\"", "Given I go"]⟩
    c.Reachable ∧ d.Described c 1 ∧ d.InDocString 6 ∧ ¬d.Flagged c 2 "Given I wait" ∧
      d.Flagged c 3 "  Given I go " ∧
      d.diagnostics c = [⟨Severity.error, "Syntax error", ⟨4, 3, 4, 13⟩⟩,
        ⟨Severity.error, "Syntax error", ⟨5, 1, 5, 11⟩⟩] := by
  intro c d
  have hc : c.Reachable := .withSteps _ (.withLexicon _ .initial)
  have hall : d.classes c =
      [.header, .description, .step, .step, .unknown, .docString, .docString] := by
    decide +kernel
  have hmarkers : d.diagnostics c = [⟨Severity.error, "Syntax error", ⟨4, 3, 4, 13⟩⟩,
      ⟨Severity.error, "Syntax error", ⟨5, 1, 5, 11⟩⟩] := by
    decide +kernel
  have hclass : ∀ i, d.classAt? c i =
      [.header, .description, .step, .step, .unknown, .docString, .docString][i]? := by
    intro i
    rw [classAt?, hall]
  obtain ⟨hlines, -, hmem, -⟩ := checkSyntax_reads_document c hc d
  have hdescribed : d.Described c 1 := by
    obtain ⟨hdoc, houtside⟩ := hlines 1 "some words" rfl
    have hout : ¬d.InDocString 1 := fun h => by
      have hcls := hdoc.mpr h
      rw [hclass] at hcls
      cases hcls
    obtain ⟨hown, hfree⟩ := houtside hout
    refine ((hfree fun own h => ?_).1.mp (hclass 1)).1
    have hcls := hown own h
    rw [hclass] at hcls
    cases hcls
    cases h
  have hfenced : d.InDocString 6 := (hlines 6 "Given I go" rfl).1.mp (hclass 6)
  have hregistered : ¬d.Flagged c 2 "Given I wait" := by
    intro h
    have hm := (hmem _).mpr ⟨2, _, rfl, h, rfl⟩
    rw [hmarkers] at hm
    simp at hm
  have hflagged : d.Flagged c 3 "  Given I go " := by
    have hm : ⟨Severity.error, "Syntax error", ⟨4, 3, 4, 13⟩⟩ ∈ d.diagnostics c :=
      hmarkers ▸ List.mem_cons_self
    obtain ⟨i, line, hline, h, heq⟩ := (hmem _).mp hm
    have hi : (4 : Int) = i + 1 := congrArg (·.span.startLine) heq
    obtain rfl : i = 3 := by omega
    cases hline
    exact h
  exact ⟨hc, hdescribed, hfenced, hregistered, hflagged, hmarkers⟩

end Document

theorem Configuration.Reachable.put {c : Configuration} (h : c.Reachable) (kind : ConfigKind)
    (content : kind.Content) : (c.put kind content).Reachable := by
  cases kind with
  | keywords => exact h.withLexicon _
  | metatags => exact h.withMetatags _
  | steps => exact h.withSteps _
  | vars => exact h.withVariables _
  | imports => exact h.withImports _
  | messages => exact h.withMessages _

namespace Session

theorem reachable_step {s : Session} (h : s.configuration.Reachable) (e : SessionEvent) :
    (s.step e).configuration.Reachable := by
  rcases s.step_cases e with ⟨r, _, hs⟩ | ⟨_, memo, _, hs⟩
  · rw [hs]
    cases r with
    | update uri version content => exact h
    | delete uri => exact h
    | configure kind data =>
        rw [process_configure_configuration, Configuration.apply_fst]
        exact h.put kind _
    | query id q =>
        have hq : (s.process (.query id q)).session.configuration = s.configuration :=
          s.ask_configuration id q
        rwa [hq]
  · rwa [hs]

/-- The configuration of every run is one that the operations can build. -/
theorem reachable_run (directives : List String) (events : List SessionEvent) :
    ((withDirectives directives).run events).configuration.Reachable := by
  have hstart : (withDirectives directives).configuration.Reachable := by
    unfold withDirectives
    split
    · exact .initial
    · exact .withDirectives directives .initial
  generalize withDirectives directives = s at hstart
  induction events generalizing s with
  | nil => exact hstart
  | cons e events ih => exact ih _ (reachable_step hstart e)

end Session
end Stepwise
