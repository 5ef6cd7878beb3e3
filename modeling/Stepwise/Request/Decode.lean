import Stepwise.Request.Basic
import Stepwise.Json.Reader

/-!
# Reading requests

A request is one record that has room for the fields of every kind. When it cannot
be read whole, its identity and kind are read on their own, so that a broken
question is still answered.
-/
namespace Stepwise

open Json (Reader)
open Json.Reader (field)

def Span.fields {σ : Type} (get : σ → Span) (set : σ → Span → σ) : List (Reader.Field σ) :=
  [field "startLineNumber" (fun s => (get s).startLine)
      (fun s n => set s { get s with startLine := n }) Reader.int,
    field "startColumn" (fun s => (get s).startColumn)
      (fun s n => set s { get s with startColumn := n }) Reader.int,
    field "endLineNumber" (fun s => (get s).endLine)
      (fun s n => set s { get s with endLine := n }) Reader.int,
    field "endColumn" (fun s => (get s).endColumn)
      (fun s n => set s { get s with endColumn := n }) Reader.int]

def Span.reader : Reader Span :=
  Reader.record (Span.fields id fun _ s => s)

/-- The fields of a marker, whose places stand beside the others. -/
def Marker.fields : List (Reader.Field Marker) :=
  field "severity" Marker.severity (fun m n => { m with severity := n }) Reader.int ::
    field "message" Marker.message (fun m t => { m with message := t }) Reader.text ::
    Span.fields Marker.span fun m s => { m with span := s }

def Marker.reader : Reader Marker :=
  Reader.record Marker.fields

structure Envelope where
  id : Option String
  kindName : String
  uri : String
  line : String
  lineNumber : Int
  column : Int
  data : Option String
  version : Int
  content : List String
  span : Option Span
  markers : List Marker

namespace Envelope

def blank : Envelope := ⟨none, "", "", "", 0, 0, none, 0, [], none, []⟩

def fields : List (Reader.Field Envelope) :=
  [field "id" id (fun e v => { e with id := v }) Reader.raw,
    field "type" kindName (fun e v => { e with kindName := v }) Reader.text,
    field "uri" uri (fun e v => { e with uri := v }) Reader.text,
    field "line" line (fun e v => { e with line := v }) Reader.text,
    field "lineNumber" lineNumber (fun e v => { e with lineNumber := v }) Reader.int,
    field "column" column (fun e v => { e with column := v }) Reader.int,
    field "data" data (fun e v => { e with data := v }) Reader.raw,
    field "versionId" version (fun e v => { e with version := v }) Reader.int,
    field "content" content (fun e v => { e with content := v }) (Reader.list "" Reader.text),
    field "range" span (fun e v => { e with span := v }) (Reader.optional .unset Span.reader),
    field "markers" markers (fun e v => { e with markers := v })
      (Reader.list .blank Marker.reader)]

def reader : Reader Envelope :=
  Reader.record fields

/-- The span of a code action question: the one given, or else the line given. -/
def actionSpan (e : Envelope) : Span :=
  match e.span with
  | some s => s
  | none => if 0 < e.lineNumber then .onLine e.lineNumber 1 1 else .unset

/-- The name asked for: a text, or the text in the field `data` of a link. -/
def linkName (data : Option String) : String :=
  match data with
  | none => ""
  | some data =>
    match Reader.text.run "" data with
    | some name => name
    | none =>
      let link := Reader.record [field "data" (fun name => name) (fun _ name => name) Reader.text]
      (link.run "" data).getD ""

def question (e : Envelope) : QueryKind → Query
  | .completions => .completions e.line e.lineNumber e.column
  | .codeActions => .codeActions e.uri e.actionSpan e.markers
  | .folding => .folding e.uri
  | .links => .links e.uri
  | .hover => .hover e.uri e.lineNumber e.column
  | .linkData => .linkData e.uri (linkName e.data)
  | .checkSyntax => .checkSyntax e.uri

def request (e : Envelope) : RequestKind → Request
  | .update => .update e.uri e.version e.content
  | .delete => .delete e.uri
  | .configure kind => .configure kind e.data
  | .query kind => .query e.id (e.question kind)

end Envelope

/-- The fields that are read on their own when the others cannot be. -/
def RequestError.headFields : List (Reader.Field (Option String × String)) :=
  [field "id" Prod.fst (fun h v => (v, h.2)) Reader.raw,
    field "type" Prod.snd (fun h v => (h.1, v)) Reader.text]

/-- The identity and kind of a request that could not be read whole. -/
def RequestError.recover (text : String) : RequestError :=
  match (Reader.record headFields).run (none, "") text with
  | some (id, kindName) => ⟨id, kindName, .malformed⟩
  | none => ⟨none, "", .malformed⟩

def Request.decode (text : String) : Except RequestError Request :=
  match Envelope.reader.run .blank text with
  | none => .error (.recover text)
  | some e =>
    match RequestKind.ofName? e.kindName with
    | some kind => .ok (e.request kind)
    | none => .error ⟨e.id, e.kindName, .unknownKind⟩

end Stepwise
