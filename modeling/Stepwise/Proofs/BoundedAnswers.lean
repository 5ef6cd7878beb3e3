import Stepwise.Proofs.BoundedDocuments
import Stepwise.Proofs.BoundedRegistries
import Stepwise.Proofs.SessionRun

/-!
# Requests are handled within bounds

Every question is answered from the readings of lines and documents, and a request for
configuration builds its registry. Put together, the handling of any request, with any
numbers in it, stays within its bounds in every session that a run leads to, and what
comes of it is what the session is defined to give.

Two facts about runs carry this: the index of shapes belongs to the steps in use, and
the lexicon in use is made of declarations.
-/
namespace Stepwise.Bounded

def mentionsOn (c : Configuration) (number : Nat) (line : String) :
    Option (List ImportMention) := do
  if ← isImportLine c line then
    let quoted := ((← placeholders line).map (·.1)).filter (·.delimiter.isQuote)
    return (quoted.take 1).map fun p => ⟨number, p, true⟩
  else if (← stepLine c.lexicon line).isSome then
    let quoted := ((← placeholders line).map (·.1)).filter (·.delimiter.isQuote)
    return (quoted.filter fun p => (c.imports.find? p.inner).isSome).map fun p =>
      ⟨number, p, false⟩
  else return []

def mentions (c : Configuration) (d : Document) : Option (List ImportMention) := do
  return (← d.numbered.mapM fun e => mentionsOn c e.1 e.2).flatten

def links (c : Configuration) (d : Document) : Option (List Link) := do
  return (← mentions c d).map (·.link c)

def hoverOfVariable (c : Configuration) (line : String) (number column : Int) :
    Option (Option Hover) := do
  match ((← placeholders line).map (·.1)).find? (·.touches column) with
  | none => return none
  | some p =>
    return (← findVariable c.vars p.inner).map fun v =>
      ⟨.onLine number p.start p.stop, [v.description]⟩

/-- What is shown at a place of a document. The step is looked for only where there is no
variable. -/
def hover (c : Configuration) (d : Document) (number column : Int) : Option (Option Hover) := do
  let line ← line d number
  match ← hoverOfVariable c line number column with
  | some h => return some h
  | none =>
    return (← invokedStep c line).map fun s => ⟨.ofContent line number column, s.description⟩

/-- A variable inside a placeholder that is wrapped in dollars or not. -/
def variableItem (p : Step.Placeholder) (wrapped : Bool) (span : Span) (v : Variable) :
    CompletionItem :=
  let name := if wrapped then "$" ++ v.name ++ "$" else v.name
  { CompletionItem.plain ("\"" ++ name ++ "\" = " ++ v.value) CompletionItem.variableKind
      (p.delimiter.opening.toString ++ name ++ p.delimiter.closing.toString) span with
    filterText := p.text ++ name }

def completions (c : Configuration) (line : String) (number column : Int) :
    Option (List CompletionItem) := do
  let content := Span.ofContent line number column
  match (← placeholders line).find? (·.1.touches column) with
  | some (p, wrapped) =>
    return c.vars.all.map (variableItem p wrapped (.onLine number p.start p.stop))
  | none =>
    let stop := Text.maxColumn line
    if stop != 0 && column < (stop : Int) then return [.nothing number column]
    else match ← findKeyword c.lexicon (Text.words line) with
      | some k =>
        let typed ← capitalized k
        return c.steps.documented.map fun s => .ofStep typed (typed ++ " " ++ s.key) content s
      | none =>
        return c.metatags.map (.ofMetatag content) ++
          c.steps.documented.map fun s => .ofStep s.keyword s.key content s

/-- The first few of a list. -/
def atMost {α : Type} (limit : Nat) (xs : List α) : Option (List α) :=
  if limit < xs.length then slice? xs 0 limit else some xs

def nearestSteps (c : Configuration) (text : String) : Option (List StepDefinition) := do
  let typed ← shape text
  let measured ← c.steps.documented.mapM fun s => do
    return (Diff.distance typed (← shape s.key), s)
  let near := measured.filter fun e => e.1 ≤ typed.length / 2
  let sorted := near.mergeSort fun a b => decide (a.1 ≤ b.1)
  return (← atMost Fix.stepLimit sorted).map (·.2)

/-- Replaces the text of a step line by a near step, and keeps the keyword as typed. -/
def nearestStepFixes (c : Configuration) (line : String) (step : StepLine) (m : Marker) :
    Option (List Fix) := do
  let near ← nearestSteps c step.text
  let typed := Text.joinWords (← slice? (Text.words line) 0 step.keyword.size)
  let span := Span.ofContent line m.span.startLine 1
  return near.map fun s =>
    ⟨"Replace with " ++ inQuotes s.label, [m], [⟨span, typed ++ " " ++ s.key⟩], false⟩

def nearMissFix (c : Configuration) (line : String) (m : Marker) : Option (Option Fix) :=
  let words := Text.words line
  if words.isEmpty then some none
  else do
    let word ← at? words 0
    match ← nearMiss c.lexicon word with
    | none => return none
    | some k =>
      let text ← capitalized k
      let start := Text.minColumn line
      return some ⟨"Replace " ++ inQuotes word ++ " with " ++ inQuotes text, [m],
        [⟨.onLine m.span.startLine start (start + word.length : Nat), text⟩], true⟩

def missingKeywordFix (c : Configuration) (line : String) (m : Marker) : Option (Option Fix) := do
  match ← findStep c (Text.trim line) with
  | none => return none
  | some s =>
    if s.keyword.isEmpty then return none
    else
      let start := Text.minColumn line
      return some ⟨"Insert keyword " ++ inQuotes s.keyword, [m],
        [⟨.onLine m.span.startLine start start, s.keyword ++ " "⟩], true⟩

def lineFixes (c : Configuration) (line : String) (m : Marker) : Option (List Fix) := do
  match ← stepLine c.lexicon line with
  | some step => nearestStepFixes c line step m
  | none => return (← nearMissFix c line m).toList ++ (← missingKeywordFix c line m).toList

def declarationWord (c : Configuration) : Option String :=
  if 0 < c.directives.length then at? c.directives 0 else some "import"

def importFixes (c : Configuration) (d : Document) (span : Span) : Option (List Fix) := do
  let mentions ← mentions c d
  let declared := (mentions.filter (·.isDeclaration)).map fun m => Text.fold m.name
  let word ← declarationWord c
  return (undeclaredNames span declared mentions).map fun name =>
    ⟨"Add import " ++ inQuotes name, [],
      [⟨.onLine 1 1 1, word ++ " " ++ inQuotes name ++ "\n"⟩], false⟩

def heldMarkers (c : Configuration) (d : Document) (markers : List Marker) : Option (List Marker) :=
  if markers.isEmpty then diagnostics c d else some markers

def fixes (c : Configuration) (d : Document) (span : Span) (markers : List Marker) :
    Option (List Fix) := do
  let span := d.fixSpan span
  let markers ← heldMarkers c d markers
  let found ← (markers.filter fun m => span.containsLine m.span.startLine).mapM fun m => do
    lineFixes c (← line d m.span.startLine) m
  return found.flatten ++ (← importFixes c d span)

def markersOf (s : Session) (d : Document) : Option (List Marker × Session) :=
  let key := Session.memoKey s.configuration d
  match s.memo.lookup key with
  | some markers => some (markers, s)
  | none => do
    let markers ← diagnostics s.configuration d
    return (markers, { s with memo := (key, markers) :: s.memo })

def resolve (s : Session) (d : Document) : Query → Option (Option Answer × Session)
  | .completions line n column => do
    return (some (.completions (← completions s.configuration line n column)), s)
  | .codeActions _ span markers => do
    return (some (.fixes (← fixes s.configuration d span markers)), s)
  | .folding _ => do return (some (.folds (← folds s.configuration d)), s)
  | .links _ => do return (some (.links (← links s.configuration d)), s)
  | .hover _ n column => do return ((← hover s.configuration d n column).map .hover, s)
  | .linkData _ name => some ((s.configuration.linkTarget? name).map .target, s)
  | .checkSyntax _ => do
    let (markers, s) ← markersOf s d
    return (some (.markers markers), s)

def ask (s : Session) (id : Option String) (question : Query) : Option Handled :=
  match question with
  | .completions line n column => do
    return ⟨s, some ⟨id, some (.completions (← completions s.configuration line n column))⟩,
      [.processing, .completionContext]⟩
  | question =>
    match s.store.get? (question.uri?.getD "") with
    | none => some ⟨s, some (.failed id), [.processing, .unknownDocument]⟩
    | some d => do
      let (answer, s) ← resolve s d question
      return ⟨s, some ⟨id, answer⟩, [.processing]⟩

def process (s : Session) : Request → Option Handled
  | .configure kind data => do
    let (configuration, refusal) ← apply s.configuration kind data
    return ⟨{ s with configuration }, none,
      match refusal with
      | some _ => [.processing, .rejected, .replaced]
      | none => [.processing, .replaced]⟩
  | .query id question => ask s id question
  | r => some (s.process r)

theorem map_fst_placeholders (line : String) :
    ((Step.placeholders line).map fun p => (p, p.isDollarWrapped)).map (·.1) =
      Step.placeholders line := by
  rw [List.map_map]
  exact List.map_id _

section
variable {c : Configuration} (hc : c.Reachable) (hl : c.lexicon.Declared)

include hl in
theorem mentionsOn_eq (number : Nat) (line : String) :
    mentionsOn c number line = some (c.mentionsOn number line) := by
  unfold mentionsOn Configuration.mentionsOn quotedTokens
  simp only [isImportLine_eq, stepLine_eq hl, placeholders_eq, map_fst_placeholders,
    Option.bind_eq_bind, Option.bind_some]
  cases c.isImportLine line with
  | true => rfl
  | false => cases (StepLine.of? c.lexicon line).isSome <;> rfl

include hl in
theorem mentions_eq (d : Document) : mentions c d = some (d.mentions c) := by
  unfold mentions
  rw [mapM_eq_some_map fun e _ => mentionsOn_eq hl e.1 e.2, Document.mentions,
    List.flatMap_def]
  rfl

include hl in
theorem links_eq (d : Document) : links c d = some (d.links c) := by
  unfold links
  rw [mentions_eq hl]
  rfl

theorem hoverOfVariable_eq (line : String) (number column : Int) :
    hoverOfVariable c line number column = some (Hover.ofVariable? c line number column) := by
  unfold hoverOfVariable Hover.ofVariable? Step.placeholderAt?
  simp only [placeholders_eq, map_fst_placeholders, findVariable_eq, Option.bind_eq_bind,
    Option.bind_some]
  cases (Step.placeholders line).find? (·.touches column) <;> rfl

include hc hl in
theorem hover_eq (d : Document) (number column : Int) :
    hover c d number column = some (d.hover? c number column) := by
  unfold hover Document.hover? Hover.ofStep?
  simp only [line_eq, hoverOfVariable_eq, invokedStep_eq hc hl, Option.bind_eq_bind,
    Option.bind_some]
  cases Hover.ofVariable? c (d.line number) number column <;> rfl

include hl in
theorem completions_eq (line : String) (number column : Int) :
    completions c line number column = some (c.completions line number column) := by
  have hfind : ((Step.placeholders line).map fun p => (p, p.isDollarWrapped)).find?
      (·.1.touches column) =
        ((Step.placeholders line).find? (·.touches column)).map fun p =>
          (p, p.isDollarWrapped) := by
    rw [List.find?_map]
    rfl
  unfold completions Configuration.completions Cursor.on Step.placeholderAt?
  simp only [placeholders_eq, findKeyword_eq hl, capitalized_eq, hfind, Option.bind_eq_bind,
    Option.bind_some]
  cases (Step.placeholders line).find? (·.touches column) with
  | some p => rfl
  | none =>
      dsimp only [Option.map_none]
      split
      · rfl
      · cases c.lexicon.find? (Text.words line) <;> rfl

theorem atMost_eq {α : Type} (limit : Nat) (xs : List α) :
    atMost limit xs = some (xs.take limit) := by
  unfold atMost
  split
  · rename_i h
    exact slice?_take (Nat.le_of_lt h)
  · rename_i h
    rw [List.take_of_length_le (Nat.not_lt.mp h)]

theorem nearestSteps_eq (text : String) : nearestSteps c text = some (c.nearestSteps text) := by
  have hmeasured : (c.steps.documented.mapM fun s => do
      return (Diff.distance (Step.shape text) (← shape s.key), s) : Option (List (Nat × _))) =
        some (c.steps.documented.map fun s =>
          (Diff.distance (Step.shape text) (Step.shape s.key), s)) := by
    refine mapM_eq_some_map fun s _ => ?_
    rw [shape_eq]
    rfl
  unfold nearestSteps
  rw [shape_eq]
  simp only [Option.bind_eq_bind, Option.bind_some] at hmeasured ⊢
  rw [hmeasured]
  simp only [Option.bind_some, atMost_eq]
  rfl

theorem nearestStepFixes_eq {line : String} {step : StepLine}
    (h : step.keyword.size ≤ (Text.words line).length) (m : Marker) :
    nearestStepFixes c line step m = some (c.nearestStepFixes line step m) := by
  unfold nearestStepFixes
  simp only [nearestSteps_eq, slice?_take h, Option.bind_eq_bind, Option.bind_some]
  rfl

theorem nearMissFix_eq (line : String) (m : Marker) :
    nearMissFix c line m = some (c.nearMissFix? line m) := by
  unfold nearMissFix Configuration.nearMissFix?
  cases Text.words line with
  | nil => rfl
  | cons word rest =>
      simp only [List.isEmpty_cons, Bool.false_eq_true, if_false, at?_zero_cons, nearMiss_eq,
        capitalized_eq, Option.bind_eq_bind, Option.bind_some]
      cases c.lexicon.nearMiss? word <;> rfl

include hc in
theorem missingKeywordFix_eq (line : String) (m : Marker) :
    missingKeywordFix c line m = some (c.missingKeywordFix? line m) := by
  unfold missingKeywordFix Configuration.missingKeywordFix?
  simp only [findStep_eq hc, Option.bind_eq_bind, Option.bind_some]
  cases c.findStep? (Text.trim line) with
  | none => rfl
  | some s =>
      dsimp only
      split <;> rfl

include hc hl in
theorem lineFixes_eq (line : String) (m : Marker) :
    lineFixes c line m = some (c.lineFixes line m) := by
  unfold lineFixes Configuration.lineFixes
  rw [stepLine_eq hl]
  simp only [nearMissFix_eq, missingKeywordFix_eq hc, Option.bind_eq_bind, Option.bind_some]
  cases hs : StepLine.of? c.lexicon line with
  | none => rfl
  | some step =>
      obtain ⟨k, hk, rfl⟩ := Option.map_eq_some_iff.mp hs
      exact nearestStepFixes_eq (size_le_of_find? hl hk) m

theorem declarationWord_eq : declarationWord c = some c.declarationWord := by
  unfold declarationWord Configuration.declarationWord
  cases c.directives <;> rfl

include hl in
theorem importFixes_eq (d : Document) (span : Span) :
    importFixes c d span = some (d.importFixes c span) := by
  unfold importFixes
  simp only [mentions_eq hl, declarationWord_eq, Option.bind_eq_bind, Option.bind_some]
  rfl

include hc hl in
theorem fixes_eq (d : Document) (span : Span) (markers : List Marker) :
    fixes c d span markers = some (d.fixes c span markers) := by
  have hheld : heldMarkers c d markers =
      some (if markers.isEmpty then d.diagnostics c else markers) := by
    unfold heldMarkers
    rw [diagnostics_eq hc hl]
    split <;> rfl
  have hline : ∀ m : Marker, ((line d m.span.startLine).bind fun text => lineFixes c text m) =
      some (c.lineFixes (d.line m.span.startLine) m) := by
    intro m
    rw [line_eq, Option.bind_some, lineFixes_eq hc hl]
  unfold fixes
  simp only [hheld, importFixes_eq hl, Option.bind_eq_bind, Option.bind_some]
  rw [mapM_eq_some_map fun m _ => hline m, Document.fixes, List.flatMap_def]
  rfl

end

section
variable {s : Session} (hc : s.configuration.Reachable) (hl : s.configuration.lexicon.Declared)
include hc hl

theorem markersOf_eq (d : Document) : markersOf s d = some (s.markersOf d) := by
  unfold markersOf Session.markersOf
  dsimp only
  cases s.memo.lookup (Session.memoKey s.configuration d) with
  | some markers => rfl
  | none =>
      rw [diagnostics_eq hc hl]
      rfl

theorem resolve_eq (d : Document) (q : Query) : resolve s d q = some (s.resolve d q) := by
  cases q with
  | completions line n column =>
      rw [resolve, completions_eq hl]
      rfl
  | codeActions uri span markers =>
      rw [resolve, fixes_eq hc hl]
      rfl
  | folding uri =>
      rw [resolve, folds_eq hl]
      rfl
  | links uri =>
      rw [resolve, links_eq hl]
      rfl
  | hover uri n column =>
      rw [resolve, hover_eq hc hl]
      rfl
  | linkData uri name => rfl
  | checkSyntax uri =>
      rw [resolve, markersOf_eq hc hl]
      rfl

theorem ask_eq (id : Option String) (q : Query) : ask s id q = some (s.ask id q) := by
  cases hq : q.uri? with
  | none =>
      cases q with
      | completions line n column =>
          rw [ask, completions_eq hl]
          rfl
      | _ => cases hq
  | some uri =>
      cases hd : s.store.get? uri with
      | none =>
          rw [s.ask_of_closed id hq hd]
          cases q with
          | completions line n column => cases hq
          | _ =>
              cases hq
              simp only [ask, Query.uri?, Option.getD_some, hd]
      | some d =>
          rw [s.ask_of_open id hq hd]
          cases q with
          | completions line n column => cases hq
          | _ =>
              cases hq
              simp only [ask, Query.uri?, Option.getD_some, hd, resolve_eq hc hl]
              rfl

end

/-- In every session that a run leads to, every request is handled within its bounds. -/
theorem process_within_bounds (directives : List String) (events : List SessionEvent)
    (r : Request) :
    process ((Session.withDirectives directives).run events) r =
      some (((Session.withDirectives directives).run events).process r) := by
  have hc := Session.reachable_run directives events
  have hl := Session.declared_run directives events
  cases r with
  | update uri version lines => rfl
  | delete uri => rfl
  | configure kind data =>
      rw [process, apply_eq]
      rfl
  | query id q => exact ask_eq hc hl id q

end Stepwise.Bounded
