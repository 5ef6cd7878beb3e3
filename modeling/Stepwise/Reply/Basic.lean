import Stepwise.Document.Completion
import Stepwise.Document.Fixes
import Stepwise.Document.Folding
import Stepwise.Document.Hover
import Stepwise.Document.Links
import Stepwise.Json.Compact

/-!
# Replies

A reply repeats the identity of its question and holds an answer, or none when the
question failed. Written out, a reply is one line of compact JSON.
-/
namespace Stepwise

inductive Answer where
  | completions (items : List CompletionItem)
  | fixes (fixes : List Fix)
  | folds (folds : List Fold)
  | links (links : List Link)
  | hover (hover : Hover)
  | target (target : Target)
  | markers (markers : List Marker)
  deriving DecidableEq, Repr

/-- A reply to a question. The identity is the JSON text that the host wrote. -/
structure Reply where
  id : Option String
  answer : Option Answer
  deriving DecidableEq, Repr

def Reply.failed (id : Option String) : Reply := ⟨id, none⟩

def Span.members (s : Span) : List (String × Json) :=
  [("startLineNumber", .ofInt s.startLine), ("startColumn", .ofInt s.startColumn),
    ("endLineNumber", .ofInt s.endLine), ("endColumn", .ofInt s.endColumn)]

def Span.json (s : Span) : Json := .object s.members

/-- A marker as JSON, its places beside its other members. -/
def Marker.json (m : Marker) : Json :=
  .object (("severity", .ofInt m.severity) :: ("message", .string m.message) :: m.span.members)

/-- A completion item as JSON; empty texts are left out. -/
def CompletionItem.json (i : CompletionItem) : Json :=
  .record [("label", some (.string i.label)), ("kind", some (.ofInt i.kind)),
    ("detail", Json.nonEmpty i.detail), ("documentation", Json.nonEmpty i.documentation),
    ("sortText", Json.nonEmpty i.sortText), ("filterText", Json.nonEmpty i.filterText),
    ("insertText", some (.string i.insertText)), ("range", some i.span.json)]

def Edit.json (e : Edit) : Json :=
  .object [("range", e.span.json), ("text", .string e.text)]

/-- A fix as JSON; an empty list of markers and a missing preference are left out. -/
def Fix.json (f : Fix) : Json :=
  .record [("title", some (.string f.title)), ("kind", some (.string Fix.kindName)),
    ("diagnostics", if f.markers.isEmpty then none else some (.array (f.markers.map Marker.json))),
    ("edits", some (.array (f.edits.map Edit.json))),
    ("isPreferred", if f.isPreferred then some (.bool true) else none)]

def Fold.json (f : Fold) : Json :=
  .object [("start", .ofNat f.start), ("end", .ofNat f.stop), ("kind", .string "region")]

/-- A link as JSON; one that leads nowhere has no address. -/
def Link.json (l : Link) : Json :=
  .record [("range", some l.span.json), ("url", l.target.bind fun t => Json.nonEmpty t.uri),
    ("tooltip", l.target.bind fun t => Json.nonEmpty t.tooltip), ("data", some (.string l.name))]

def Hover.json (h : Hover) : Json :=
  .object [("range", h.span.json),
    ("contents", .array (h.blocks.map fun b => .object [("value", .string b)]))]

/-- A target as JSON; a line number of 0 is left out. -/
def Target.json (t : Target) : Json :=
  .record [("uri", some (.string t.uri)),
    ("lineNumber", if t.lineNumber = 0 then none else some (.ofInt t.lineNumber))]

def Answer.json : Answer → Json
  | .completions found => .object [("suggestions", .array (found.map CompletionItem.json))]
  | .fixes found => .object [("actions", .array (found.map Fix.json))]
  | .folds found => .array (found.map Fold.json)
  | .links found => .object [("links", .array (found.map Link.json))]
  | .hover found => found.json
  | .target found => found.json
  | .markers found => .array (found.map Marker.json)

namespace Reply

/-- The identity as it is written into a reply: compact, with unsafe characters escaped.
An identity that is not well formed cannot be written. -/
def idText (r : Reply) : Except Json.CompactFault String :=
  match r.id with
  | none => .ok "null"
  | some id => Json.compact true id

/-- The data of a reply: `null` when the question failed. -/
def data (r : Reply) : Json :=
  match r.answer with
  | some a => a.json
  | none => .null

def text (r : Reply) : Except Json.CompactFault String :=
  r.idText.map fun id =>
    "\x7b\"id\":" ++ id ++ ",\"data\":" ++ r.data.render ++ ",\"success\":" ++
      (Json.bool r.answer.isSome).render ++ "\x7d"

/-- The line of a reply that can be written. -/
def text? (r : Reply) : Option String := r.text.toOption

end Reply
end Stepwise
