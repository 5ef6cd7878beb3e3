import Stepwise.Editor.Diagnostic
import Stepwise.Reply.Basic

/-!
# Results for an editor

The answers of a session in the form in which an editor reads them.
-/
namespace Stepwise.Editor

def Position.json (p : Position) : Json :=
  .object [("line", .ofNat p.line), ("character", .ofNat p.character)]

def Range.json (r : Range) : Json :=
  .object [("start", r.start.json), ("end", r.stop.json)]

def spanJson (s : Span) : Json :=
  (Range.ofSpan s).json

def Diagnostic.json (d : Diagnostic) : Json :=
  .object [("range", d.range.json), ("severity", .ofNat d.severity.code),
    ("source", .string d.source), ("message", .string d.message)]

def markdown (text : String) : Json :=
  .object [("kind", .string "markdown"), ("value", .string text)]

/-- The number an editor gives to a kind of completion. -/
def completionKind (kind : Int) : Nat :=
  if kind = 0 then 2
  else if kind = CompletionItem.functionKind then 3
  else if kind = CompletionItem.variableKind then 6
  else if kind = CompletionItem.keywordKind then 14
  else 1

def completionJson (i : CompletionItem) : Json :=
  .record
    [("detail", Json.nonEmpty i.detail),
      ("documentation",
        if i.documentation.isEmpty then none else some (markdown i.documentation)),
      ("filterText", Json.nonEmpty i.filterText), ("insertText", Json.nonEmpty i.insertText),
      ("kind", some (.ofNat (completionKind i.kind))), ("label", some (.string i.label)),
      ("sortText", Json.nonEmpty i.sortText),
      ("textEdit",
        some (.object [("range", spanJson i.span), ("newText", .string i.insertText)]))]

/-- The completions as JSON, without items that insert nothing. -/
def completionsJson (items : List CompletionItem) : Json :=
  let shown := items.filter fun i => !(i.label.isEmpty && i.insertText.isEmpty)
  .object [("isIncomplete", .bool false), ("items", .array (shown.map completionJson))]

/-- A hover as JSON, its blocks set apart by empty lines. -/
def hoverJson (h : Hover) : Json :=
  .object [("contents", markdown ("\n\n".intercalate h.blocks)), ("range", spanJson h.span)]

def foldJson (f : Fold) : Json :=
  .object [("startLine", .ofNat (indexOf f.start)), ("endLine", .ofNat (indexOf f.stop)),
    ("kind", .string "region")]

/-- A link as JSON; one that leads nowhere is not shown. -/
def linkJson? (l : Link) : Option Json :=
  l.target.bind fun t =>
    if t.uri.isEmpty then none
    else
      some (.record [("range", some (spanJson l.span)), ("target", some (.string t.uri)),
        ("tooltip", Json.nonEmpty t.tooltip)])

def editJson (e : Edit) : Json :=
  .object [("range", spanJson e.span), ("newText", .string e.text)]

def fixJson (uri : String) (f : Fix) : Json :=
  .record
    [("title", some (.string f.title)), ("kind", some (.string Fix.kindName)),
      ("diagnostics",
        if f.markers.isEmpty then none
        else some (.array (f.markers.map fun m => (Diagnostic.ofMarker m).json))),
      ("isPreferred", if f.isPreferred then some (.bool true) else none),
      ("edit",
        some (.object [("changes", .object [(uri, .array (f.edits.map editJson))])]))]

/-- What this tool can do, as JSON. -/
def capabilities : Json :=
  .object
    [("textDocumentSync", .object [("openClose", .bool true), ("change", .ofNat 1)]),
      ("completionProvider",
        .object [("triggerCharacters", .ofStrings [" ", "\"", "'", "<", "$"])]),
      ("hoverProvider", .bool true), ("codeActionProvider", .bool true),
      ("documentLinkProvider", .object []), ("foldingRangeProvider", .bool true)]

def initializeJson (version : String) : Json :=
  .object
    [("capabilities", capabilities),
      ("serverInfo",
        .record [("name", some (.string sourceName)), ("version", Json.nonEmpty version)])]

end Stepwise.Editor
