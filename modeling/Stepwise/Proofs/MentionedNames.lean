import Stepwise.Document.Fixes

/-!
# Names that a document mentions

A quoted token mentions an import in one of two roles, and its line decides which. On an import
line the first quoted token declares a name, known or not, and the others count for nothing. On
a step line every quoted token counts whose name is known, and it refers. A line that opens with
a directive is an import line even if a keyword opens it too.

A line put on top moves the mentions of a document down by one, and adds its own in front
of them.
-/
namespace Stepwise

/-- The quoted tokens of a line that count, with whether they declare. -/
inductive Configuration.Mentions (c : Configuration) (line : String) :
    Step.Placeholder → Bool → Prop
  | declaration {p : Step.Placeholder} : c.isImportLine line = true →
      (quotedTokens line).head? = some p → Mentions c line p true
  | reference {p : Step.Placeholder} : c.isImportLine line = false →
      (StepLine.of? c.lexicon line).isSome = true → p ∈ quotedTokens line →
      (c.imports.find? p.inner).isSome = true → Mentions c line p false

section
variable {c : Configuration} {line : String} {m : ImportMention} {n : Nat}

theorem Configuration.mem_mentionsOn_iff : m ∈ c.mentionsOn n line ↔
    m.lineNumber = n ∧ c.Mentions line m.token m.isDeclaration := by
  obtain ⟨number, p, role⟩ := m
  constructor
  · intro h
    unfold mentionsOn at h
    split at h
    · rename_i himport
      obtain ⟨q, hq, heq⟩ := List.mem_map.mp h
      cases heq
      refine ⟨rfl, .declaration himport ?_⟩
      rwa [List.take_one, Option.mem_toList] at hq
    rename_i himport
    split at h
    · rename_i hstep
      obtain ⟨q, hq, heq⟩ := List.mem_map.mp h
      cases heq
      obtain ⟨hquoted, hknown⟩ := List.mem_filter.mp hq
      exact ⟨rfl, .reference (Bool.not_eq_true _ ▸ himport) hstep hquoted hknown⟩
    · cases h
  · rintro ⟨rfl, h⟩
    cases h with
    | declaration himport hfirst =>
        rw [mentionsOn, if_pos himport, List.take_one, hfirst]
        exact List.mem_singleton_self _
    | reference himport hstep hquoted hknown =>
        rw [mentionsOn, himport, if_neg Bool.false_ne_true, if_pos hstep]
        exact List.mem_map_of_mem (List.mem_filter.mpr ⟨hquoted, hknown⟩)

theorem Configuration.Mentions.isImportLine_or_isStepLine {p : Step.Placeholder} {role : Bool}
    (h : c.Mentions line p role) :
    c.isImportLine line = true ∨ (StepLine.of? c.lexicon line).isSome = true := by
  cases h with
  | declaration himport _ => exact .inl himport
  | reference _ hstep _ _ => exact .inr hstep

theorem Configuration.Mentions.mem_quotedTokens {p : Step.Placeholder} {role : Bool}
    (h : c.Mentions line p role) : p ∈ quotedTokens line := by
  cases h with
  | declaration _ hfirst => exact List.mem_of_head? hfirst
  | reference _ _ hquoted _ => exact hquoted

end

namespace Document
variable {c : Configuration} {d : Document} {m : ImportMention}

theorem mem_mentions_iff : m ∈ d.mentions c ↔ ∃ (i : Nat) (line : String),
    d.lines[i]? = some line ∧ m.lineNumber = i + 1 ∧ c.Mentions line m.token m.isDeclaration := by
  rw [mentions, List.mem_flatMap]
  constructor
  · rintro ⟨⟨n, line⟩, hline, hm⟩
    obtain ⟨i, hi, heq⟩ := List.mem_mapIdx.mp hline
    cases heq
    obtain ⟨hnumber, hmentions⟩ := Configuration.mem_mentionsOn_iff.mp hm
    exact ⟨i, _, List.getElem?_eq_getElem hi, hnumber, hmentions⟩
  · rintro ⟨i, line, hline, hmention⟩
    obtain ⟨hi, rfl⟩ := List.getElem?_eq_some_iff.mp hline
    exact ⟨(i + 1, d.lines[i]), List.mem_mapIdx.mpr ⟨i, hi, rfl⟩,
      Configuration.mem_mentionsOn_iff.mpr hmention⟩

/-- The mentions in one role, line by line. -/
theorem exists_mention_iff {role : Bool} {P : ImportMention → Prop} :
    (∃ m ∈ d.mentions c, m.isDeclaration = role ∧ P m) ↔
      ∃ (i : Nat) (line : String) (p : Step.Placeholder), d.lines[i]? = some line ∧
        c.Mentions line p role ∧ P ⟨i + 1, p, role⟩ := by
  constructor
  · rintro ⟨⟨n, p, role⟩, hm, rfl, hmention⟩
    obtain ⟨i, line, hline, hnumber, htoken⟩ := mem_mentions_iff.mp hm
    obtain rfl : n = i + 1 := hnumber
    exact ⟨i, line, p, hline, htoken, hmention⟩
  · rintro ⟨i, line, p, hline, htoken, hmention⟩
    exact ⟨_, mem_mentions_iff.mpr ⟨i, line, hline, rfl, htoken⟩, rfl, hmention⟩

def withFirstLine (d : Document) (line : String) : Document :=
  { d with lines := line :: d.lines }

end Document

def ImportMention.down (m : ImportMention) : ImportMention :=
  { m with lineNumber := m.lineNumber + 1 }

theorem Configuration.mentionsOn_add_one (c : Configuration) (n : Nat) (line : String) :
    c.mentionsOn (n + 1) line = (c.mentionsOn n line).map .down := by
  unfold mentionsOn
  split
  · rw [List.map_map]
    rfl
  split
  · rw [List.map_map]
    rfl
  · rfl

theorem Document.numbered_withFirstLine (d : Document) (line : String) :
    (d.withFirstLine line).numbered =
      (1, line) :: d.numbered.map fun (number, line) => (number + 1, line) := by
  rw [numbered, withFirstLine, List.mapIdx_cons, numbered, List.mapIdx_eq_zipIdx_map,
    List.mapIdx_eq_zipIdx_map, List.map_map]
  rfl

theorem Document.mentions_withFirstLine (c : Configuration) (d : Document) (line : String) :
    (d.withFirstLine line).mentions c = c.mentionsOn 1 line ++ (d.mentions c).map .down := by
  rw [mentions, numbered_withFirstLine, List.flatMap_cons, mentions]
  simp only [List.flatMap_map, List.map_flatMap, c.mentionsOn_add_one]

/-- The configuration of the keyword "Given" and some imports, for examples. -/
def Configuration.ofImports (entries : List ImportEntry) : Configuration :=
  (initial.withLexicon (.ofPhrases [⟨"", .step, ["Given"]⟩])).withImports (.ofList entries)

end Stepwise
