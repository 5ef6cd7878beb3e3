import Stepwise.Document.Diagnostics
import Stepwise.Document.Links

/-!
# Proposed fixes

For a flagged step line the nearest documented steps are proposed. For a flagged
line without a keyword it is the keyword most likely meant, and the keyword of the
step that the line would invoke. Beside that, a reference to an import that the
document does not declare comes with a declaration to add. A fix only proposes; a
document is never changed.
-/
namespace Stepwise

structure Edit where
  span : Span
  text : String
  deriving DecidableEq, Repr

structure Fix where
  title : String
  markers : List Marker
  edits : List Edit
  isPreferred : Bool
  deriving DecidableEq, Repr

def Fix.kindName : String := "quickfix"

/-- How many steps are proposed for one line. -/
def Fix.stepLimit : Nat := 3

/-- A text between plain double quotes. -/
def inQuotes (text : String) : String :=
  "\"" ++ text ++ "\""

namespace Configuration

/-- The documented steps near enough to a step text, nearest first and in registry order
among equals. -/
def nearestSteps (c : Configuration) (text : String) : List StepDefinition :=
  let shape := Step.shape text
  let measured := c.steps.documented.map fun s => (Diff.distance shape (Step.shape s.key), s)
  let near := measured.filter fun e => e.1 ≤ shape.length / 2
  ((near.mergeSort fun a b => decide (a.1 ≤ b.1)).take Fix.stepLimit).map (·.2)

/-- Replaces the text of a step line by a near step, and keeps the keyword as typed. -/
def nearestStepFixes (c : Configuration) (line : String) (step : StepLine) (m : Marker) :
    List Fix :=
  let typed := Text.joinWords ((Text.words line).take step.keyword.size)
  let span := Span.ofContent line m.span.startLine 1
  (c.nearestSteps step.text).map fun s =>
    ⟨"Replace with " ++ inQuotes s.label, [m], [⟨span, typed ++ " " ++ s.key⟩], false⟩

/-- Replaces a mistyped first word by the keyword it was meant to be. -/
def nearMissFix? (c : Configuration) (line : String) (m : Marker) : Option Fix :=
  match Text.words line with
  | [] => none
  | word :: _ =>
    (c.lexicon.nearMiss? word).map fun k =>
      let start := Text.minColumn line
      ⟨"Replace " ++ inQuotes word ++ " with " ++ inQuotes k.capitalized, [m],
        [⟨.onLine m.span.startLine start (start + word.length : Nat), k.capitalized⟩], true⟩

/-- Puts the keyword of a step before a line that is the text of that step. -/
def missingKeywordFix? (c : Configuration) (line : String) (m : Marker) : Option Fix :=
  match c.findStep? (Text.trim line) with
  | none => none
  | some s =>
    if s.keyword.isEmpty then none
    else
      let start := Text.minColumn line
      some ⟨"Insert keyword " ++ inQuotes s.keyword, [m],
        [⟨.onLine m.span.startLine start start, s.keyword ++ " "⟩], true⟩

/-- The fixes of a flagged line. -/
def lineFixes (c : Configuration) (line : String) (m : Marker) : List Fix :=
  match StepLine.of? c.lexicon line with
  | some step => c.nearestStepFixes line step m
  | none => (c.nearMissFix? line m).toList ++ (c.missingKeywordFix? line m).toList

def declarationWord (c : Configuration) : String :=
  c.directives.headD "import"

/-- Declares a name on a new first line. -/
def importFix (c : Configuration) (name : String) : Fix :=
  ⟨"Add import " ++ inQuotes name, [],
    [⟨.onLine 1 1 1, c.declarationWord ++ " " ++ inQuotes name ++ "\n"⟩], false⟩

end Configuration

/-- The names of mentions in a span that are not declared, each once. `declared` holds the
folded names that need no declaration. -/
def undeclaredNames (span : Span) : List String → List ImportMention → List String
  | _, [] => []
  | declared, m :: rest =>
    let key := Text.fold m.name
    if m.isDeclaration || declared.contains key || !span.containsLine m.lineNumber then
      undeclaredNames span declared rest
    else m.name :: undeclaredNames span (key :: declared) rest

/-- The declarations to add for the references in a span. -/
def Document.importFixes (c : Configuration) (d : Document) (span : Span) : List Fix :=
  let mentions := d.mentions c
  let declared := (mentions.filter (·.isDeclaration)).map fun m => Text.fold m.name
  (undeclaredNames span declared mentions).map c.importFix

/-- The lines that a fix question is about: all of them when it names none. -/
def Document.fixSpan (d : Document) (span : Span) : Span :=
  if span.startLine = 0 ∧ span.endLine = 0 then ⟨1, 1, d.lineCount, 1⟩ else span

/-- The fixes for the flagged lines in a span. The markers are those that the host
already holds; without any the document is checked anew. -/
def Document.fixes (c : Configuration) (d : Document) (span : Span) (markers : List Marker) :
    List Fix :=
  let span := d.fixSpan span
  let markers := if markers.isEmpty then d.diagnostics c else markers
  ((markers.filter fun m => span.containsLine m.span.startLine).flatMap fun m =>
    c.lineFixes (d.line m.span.startLine) m) ++ d.importFixes c span

end Stepwise
