import Stepwise.Document.Span
import Stepwise.Schema.Configuration

/-!
# Requests of a host

A host sends three kinds of request: it replaces or removes a document, it replaces
a part of the configuration, or it asks a question. Only questions are answered,
and the answer repeats the identity that the host chose for the question.
-/
namespace Stepwise

/-- A question. All but completions are about a document. -/
inductive Query where
  | completions (line : String) (lineNumber column : Int)
  | codeActions (uri : String) (span : Span) (markers : List Marker)
  | folding (uri : String)
  | links (uri : String)
  | hover (uri : String) (lineNumber column : Int)
  | linkData (uri : String) (name : String)
  | checkSyntax (uri : String)
  deriving DecidableEq, Repr

/-- The document a question is about. -/
def Query.uri? : Query → Option String
  | .completions .. => none
  | .codeActions uri .. => some uri
  | .folding uri => some uri
  | .links uri => some uri
  | .hover uri .. => some uri
  | .linkData uri _ => some uri
  | .checkSyntax uri => some uri

/-- A request. The identity of a question and the data of a configuration are JSON texts
as the host wrote them. -/
inductive Request where
  | update (uri : String) (version : Int) (content : List String)
  | delete (uri : String)
  | configure (kind : ConfigKind) (data : Option String)
  | query (id : Option String) (question : Query)
  deriving DecidableEq, Repr

inductive QueryKind where
  | completions
  | codeActions
  | folding
  | links
  | hover
  | linkData
  | checkSyntax
  deriving DecidableEq, Repr

inductive RequestKind where
  | update
  | delete
  | configure (kind : ConfigKind)
  | query (kind : QueryKind)
  deriving DecidableEq, Repr

namespace RequestKind

/-- All kinds of request. -/
def all : List RequestKind :=
  [update, delete, configure .keywords, configure .metatags, configure .steps,
    configure .vars, configure .imports, configure .messages, query .completions,
    query .codeActions, query .folding, query .links, query .hover, query .linkData,
    query .checkSyntax]

def name : RequestKind → String
  | update => "UpdateModel"
  | delete => "DeleteModel"
  | configure .keywords => "SetMatchers"
  | configure .metatags => "SetMetatags"
  | configure .steps => "SetSteplist"
  | configure .vars => "SetVariables"
  | configure .imports => "SetImports"
  | configure .messages => "SetMessages"
  | query .completions => "GetCompletions"
  | query .codeActions => "GetCodeActions"
  | query .folding => "GetCodeFolding"
  | query .links => "GetHiperlinks"
  | query .hover => "GetLineHover"
  | query .linkData => "GetLinkData"
  | query .checkSyntax => "CheckSyntax"

def ofName? (name : String) : Option RequestKind :=
  all.find? fun k => k.name == name

def isQueryName (name : String) : Bool :=
  match ofName? name with
  | some (query _) => true
  | _ => false

end RequestKind

def Query.kind : Query → QueryKind
  | .completions .. => .completions
  | .codeActions .. => .codeActions
  | .folding _ => .folding
  | .links _ => .links
  | .hover .. => .hover
  | .linkData .. => .linkData
  | .checkSyntax _ => .checkSyntax

def Request.kind : Request → RequestKind
  | .update .. => .update
  | .delete _ => .delete
  | .configure kind _ => .configure kind
  | .query _ question => .query question.kind

inductive RequestFault where
  | malformed
  | unknownKind
  deriving DecidableEq, Repr

/-- Why a text is no request, with as much of its head as could be read. -/
structure RequestError where
  id : Option String
  kindName : String
  fault : RequestFault
  deriving DecidableEq, Repr

def RequestError.unknownKindMessage (kindName : String) : String :=
  if kindName.isEmpty then "decode message: unknown message type"
  else "decode " ++ kindName ++ " message: unknown message type"

end Stepwise
