import Stepwise.Editor.Params
import Stepwise.Editor.Result
import Stepwise.Session.Basic
import Stepwise.Text.Quoted

/-!
# Serving an editor

An editor calls methods. A call is turned into requests to a session, and the
answers into results. Whenever a document is opened or changed its diagnostics are
published, and when it is closed an empty list of them.
-/
namespace Stepwise.Editor

/-- A session that serves an editor. Without a connection nothing is published. -/
structure Server where
  session : Session
  version : String
  isConnected : Bool

inductive Method where
  | start
  | started
  | shutdown
  | exit
  | didOpen
  | didChange
  | didClose
  | completion
  | hover
  | foldingRange
  | documentLink
  | codeAction
  deriving DecidableEq, Repr

namespace Method

/-- All methods. -/
def all : List Method :=
  [start, started, shutdown, exit, didOpen, didChange, didClose, completion, hover,
    foldingRange, documentLink, codeAction]

def name : Method → String
  | start => "initialize"
  | started => "initialized"
  | shutdown => "shutdown"
  | exit => "exit"
  | didOpen => "textDocument/didOpen"
  | didChange => "textDocument/didChange"
  | didClose => "textDocument/didClose"
  | completion => "textDocument/completion"
  | hover => "textDocument/hover"
  | foldingRange => "textDocument/foldingRange"
  | documentLink => "textDocument/documentLink"
  | codeAction => "textDocument/codeAction"

def ofName? (name : String) : Option Method :=
  all.find? fun m => m.name == name

end Method

structure Notice where
  uri : String
  diagnostics : List Diagnostic
  deriving DecidableEq, Repr

def Notice.methodName : String := "textDocument/publishDiagnostics"

def Notice.json (n : Notice) : Json :=
  .object [("uri", .string n.uri), ("diagnostics", .array (n.diagnostics.map Diagnostic.json))]

inductive Outcome where
  | result (value : Json)
  | badParams
  | unknownMethod (name : String)
  | silent

/-- The text of the outcome of a call to an unknown method. -/
def Outcome.unknownMethodMessage (name : String) : String :=
  Text.quoted name ++ ": JSON-RPC method not found"

structure Served where
  server : Server
  outcome : Outcome
  notices : List Notice
  log : List LogEvent

namespace Server

/-- A session served to an editor. -/
def ofSession (session : Session) (version : String) (isConnected : Bool) : Server :=
  ⟨session, version, isConnected⟩

def result (s : Server) (value : Json) (log : List LogEvent) : Served :=
  ⟨s, .result value, [], log⟩

/-- Runs a call with its parameters, or refuses it when they cannot be read. -/
def withParams {α : Type} (s : Server) (reader : Json.Reader α) (fresh : α) (params : String)
    (call : α → Served) : Served :=
  match reader.run fresh params with
  | some p => call p
  | none => ⟨s, .badParams, [], []⟩

/-- What is published: nothing without a connection. -/
def notices (s : Server) (uri : String) (diagnostics : List Diagnostic) : List Notice :=
  if s.isConnected then [⟨uri, diagnostics⟩] else []

def ask (s : Server) (question : Query) : Server × Option Answer × List LogEvent :=
  let handled := s.session.process (.query none question)
  ({ s with session := handled.session }, handled.reply.bind (·.answer), handled.log)

/-- The diagnostics of a document that is stored. -/
def diagnose (s : Server) (uri : String) : Server × List Diagnostic × List LogEvent :=
  let (s, answer, log) := s.ask (.checkSyntax uri)
  match answer with
  | some (.markers markers) => (s, markers.map .ofMarker, log)
  | _ => (s, [], log)

/-- Stores a document and publishes its diagnostics. -/
def store (s : Server) (uri : String) (version : Int) (text : String) : Served :=
  let handled := s.session.process (.update uri version (Text.splitLines text))
  let (s, diagnostics, log) := { s with session := handled.session }.diagnose uri
  ⟨s, .result .null, s.notices uri diagnostics, handled.log ++ log ++ [.publishing]⟩

def openDocument (s : Server) (p : OpenParams) : Served :=
  let served := s.store p.uri p.version p.text
  { served with log := .opened :: served.log }

/-- Changes a document to the text of the last change. -/
def changeDocument (s : Server) (p : ChangeParams) : Served :=
  match p.texts.getLast? with
  | none => s.result .null [.changed]
  | some text =>
    let served := s.store p.uri p.version text
    { served with log := .changed :: served.log }

def closeDocument (s : Server) (uri : String) : Served :=
  let handled := s.session.process (.delete uri)
  let s := { s with session := handled.session }
  ⟨s, .result .null, s.notices uri [], .closed :: handled.log ++ [.publishing]⟩

def completion (s : Server) (p : PlaceParams) : Served :=
  match s.session.store.get? p.uri with
  | none => s.result (completionsJson []) []
  | some d =>
    let line : Int := p.position.line + 1
    let (s, answer, log) := s.ask (.completions (d.line line) line (p.position.character + 1))
    match answer with
    | some (.completions items) => s.result (completionsJson items) log
    | _ => s.result (completionsJson []) log

def hover (s : Server) (p : PlaceParams) : Served :=
  let (s, answer, log) :=
    s.ask (.hover p.uri (p.position.line + 1) (p.position.character + 1))
  match answer with
  | some (.hover h) => s.result (hoverJson h) log
  | _ => s.result .null log

def folding (s : Server) (p : PlaceParams) : Served :=
  let (s, answer, log) := s.ask (.folding p.uri)
  match answer with
  | some (.folds folds) => s.result (.array (folds.map foldJson)) log
  | _ => s.result (.array []) log

def links (s : Server) (uri : String) : Served :=
  let (s, answer, log) := s.ask (.links uri)
  match answer with
  | some (.links links) => s.result (.array (links.filterMap linkJson?)) log
  | _ => s.result (.array []) log

def actions (s : Server) (p : ActionParams) : Served :=
  let (s, answer, log) :=
    s.ask (.codeActions p.uri p.range.toSpan (Diagnostic.ownMarkers p.diagnostics))
  match answer with
  | some (.fixes fixes) => s.result (.array (fixes.map (fixJson p.uri))) log
  | _ => s.result (.array []) log

def call (s : Server) (params : String) : Method → Served
  | .start =>
    s.withParams initializeReader () params fun _ =>
      s.result (initializeJson s.version) [.initializing]
  | .started => s.withParams emptyReader () params fun _ => s.result .null [.initialized]
  | .shutdown => s.result .null [.shuttingDown]
  | .exit => ⟨s, .silent, [], [.exiting]⟩
  | .didOpen => s.withParams OpenParams.reader ⟨"", 0, ""⟩ params s.openDocument
  | .didChange => s.withParams ChangeParams.reader ⟨"", 0, []⟩ params s.changeDocument
  | .didClose => s.withParams closedReader "" params s.closeDocument
  | .completion => s.withParams PlaceParams.completionReader ⟨"", .zero⟩ params s.completion
  | .hover => s.withParams PlaceParams.hoverReader ⟨"", .zero⟩ params s.hover
  | .foldingRange => s.withParams PlaceParams.foldingReader ⟨"", .zero⟩ params s.folding
  | .documentLink => s.withParams linksReader "" params s.links
  | .codeAction => s.withParams ActionParams.reader ⟨"", .zero, []⟩ params s.actions

/-- Serves a call. A call without parameters has the empty text for them. -/
def serve (s : Server) (method params : String) : Served :=
  let served := match Method.ofName? method with
    | some m => s.call params m
    | none => ⟨s, .unknownMethod method, [], []⟩
  { served with log := .requestReceived :: served.log }

end Server
end Stepwise.Editor
