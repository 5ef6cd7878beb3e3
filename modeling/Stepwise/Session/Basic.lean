import Stepwise.Configuration.Apply
import Stepwise.Document.Store
import Stepwise.Log.Event
import Stepwise.Reply.Basic
import Stepwise.Request.Decode

/-!
# Sessions

A session holds the configuration and the open documents and handles one request
after the other. The markers of a document are remembered under a key made of its
address, its revision and the generation of the configuration, so that a question
about the same document under the same configuration is not worked out again.
-/
namespace Stepwise

structure Session where
  configuration : Configuration
  store : Store
  memo : List (String × List Marker)

structure Handled where
  session : Session
  reply : Option Reply
  log : List LogEvent

namespace Session

def initial : Session := ⟨.initial, .empty, []⟩

instance : Inhabited Session := ⟨initial⟩

/-- The first session, with the words that open an import line if any are given. -/
def withDirectives (directives : List String) : Session :=
  if directives.isEmpty then initial
  else { initial with configuration := Configuration.initial.withDirectives directives }

/-- The key under which the markers of a document are remembered. -/
def memoKey (c : Configuration) (d : Document) : String :=
  d.uri ++ "#" ++ toString d.revision ++ "#" ++ toString c.generation

/-- The markers of a document, from memory when they are there. -/
def markersOf (s : Session) (d : Document) : List Marker × Session :=
  let key := memoKey s.configuration d
  match s.memo.lookup key with
  | some markers => (markers, s)
  | none =>
    let markers := d.diagnostics s.configuration
    (markers, { s with memo := (key, markers) :: s.memo })

def resolve (s : Session) (d : Document) : Query → Option Answer × Session
  | .completions line n column => (some (.completions (s.configuration.completions line n column)), s)
  | .codeActions _ span markers => (some (.fixes (d.fixes s.configuration span markers)), s)
  | .folding _ => (some (.folds (d.folds s.configuration)), s)
  | .links _ => (some (.links (d.links s.configuration)), s)
  | .hover _ n column => ((d.hover? s.configuration n column).map .hover, s)
  | .linkData _ name => ((s.configuration.linkTarget? name).map .target, s)
  | .checkSyntax _ =>
    let (markers, s) := s.markersOf d
    (some (.markers markers), s)

/-- Answers a question. A question about a document that is not open fails. -/
def ask (s : Session) (id : Option String) (question : Query) : Handled :=
  match question with
  | .completions line n column =>
    ⟨s, some ⟨id, some (.completions (s.configuration.completions line n column))⟩,
      [.processing, .completionContext]⟩
  | question =>
    match s.store.get? (question.uri?.getD "") with
    | none => ⟨s, some (.failed id), [.processing, .unknownDocument]⟩
    | some d =>
      let (answer, s) := s.resolve d question
      ⟨s, some ⟨id, answer⟩, [.processing]⟩

/-- Handles a request. Only a question has a reply. -/
def process (s : Session) : Request → Handled
  | .update uri version content =>
    ⟨{ s with store := s.store.update uri version content }, none, [.processing]⟩
  | .delete uri => ⟨{ s with store := s.store.close uri }, none, [.processing]⟩
  | .configure kind data =>
    let (configuration, refusal) := s.configuration.apply kind data
    ⟨{ s with configuration }, none,
      match refusal with
      | some _ => [.processing, .rejected, .replaced]
      | none => [.processing, .replaced]⟩
  | .query id question => s.ask id question

/-- Handles a request as it is written. A text that cannot be read is answered when its
kind is a question or its identity is known. -/
def processText (s : Session) (text : String) : Handled :=
  match Request.decode text with
  | .ok request => s.process request
  | .error e =>
    ⟨s, if RequestKind.isQueryName e.kindName || e.id.isSome then some (.failed e.id) else none,
      [.undecodable]⟩

end Session
end Stepwise
