import Stepwise.Document.Cursor
import Stepwise.Document.StepLine
import Stepwise.Number.Word

/-!
# Completions

What is offered depends on the place of the cursor: variables inside a placeholder,
steps after a keyword, metatags and steps on any other line, and one empty item in
the middle of a line, which keeps an editor from offering words of its own.
-/
namespace Stepwise

structure CompletionItem where
  label : String
  kind : Int
  detail : String
  documentation : String
  sortText : String
  filterText : String
  insertText : String
  span : Span
  deriving DecidableEq, Repr

namespace CompletionItem

/-- The number a host gives to functions. -/
def functionKind : Int := 1

/-- The number a host gives to variables. -/
def variableKind : Int := 4

/-- The number a host gives to keywords. -/
def keywordKind : Int := 17

/-- An item without texts beyond its label and what it inserts. -/
def plain (label : String) (kind : Int) (insertText : String) (span : Span) : CompletionItem :=
  ⟨label, kind, "", "", "", "", insertText, span⟩

/-- The column before a column, in 64 bits. -/
def columnBefore (column : Int) : Int :=
  Number.wrap64 (column - 1)

/-- The item that offers nothing. -/
def nothing (lineNumber column : Int) : CompletionItem :=
  plain "" functionKind "" (.onLine lineNumber (columnBefore column) column)

/-- A variable inside a placeholder, with the delimiters and dollars that stand there. -/
def ofVariable (p : Step.Placeholder) (span : Span) (v : Variable) : CompletionItem :=
  let name := if p.isDollarWrapped then "$" ++ v.name ++ "$" else v.name
  { plain ("\"" ++ name ++ "\" = " ++ v.value) variableKind
      (p.delimiter.opening.toString ++ name ++ p.delimiter.closing.toString) span with
    filterText := p.text ++ name }

/-- A metatag on a line of its own. -/
def ofMetatag (span : Span) (tag : String) : CompletionItem :=
  plain tag keywordKind (tag ++ "\n") span

def ofStep (keyword filterText : String) (span : Span) (s : StepDefinition) : CompletionItem where
  label := s.label
  kind := if s.kind = 0 then functionKind else s.kind
  detail := s.group
  documentation := s.documentation
  sortText := s.sortText
  filterText := filterText
  insertText := keyword ++ " " ++ s.insertText ++ "\n"
  span := span

end CompletionItem

/-- What is offered with the cursor at a column of a line. -/
def Configuration.completions (c : Configuration) (line : String) (lineNumber column : Int) :
    List CompletionItem :=
  let content := Span.ofContent line lineNumber column
  match Cursor.on c.lexicon line column with
  | .inPlaceholder p =>
    c.vars.all.map (.ofVariable p (.onLine lineNumber p.start p.stop))
  | .midLine => [.nothing lineNumber column]
  | .afterKeyword k =>
    c.steps.documented.map fun s =>
      .ofStep k.capitalized (k.capitalized ++ " " ++ s.key) content s
  | .topLevel =>
    c.metatags.map (.ofMetatag content) ++
      c.steps.documented.map fun s => .ofStep s.keyword s.key content s

end Stepwise
