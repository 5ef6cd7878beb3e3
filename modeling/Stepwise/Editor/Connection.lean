import Stepwise.Editor.Frame
import Stepwise.Editor.Server
import Stepwise.Json.Read
import Stepwise.Number.Word

/-!
# The connection to an editor

Messages are JSON objects in frames. A message with a method is a call when it has
an identity and a notification when it has none; a message without a method is a
response, which nothing waits for. Everything else ends the connection.
-/
namespace Stepwise.Editor

inductive CallId where
  | number (n : Int)
  | name (text : String)
  deriving DecidableEq, Repr

def CallId.json : CallId → Json
  | number n => .ofInt n
  | name text => .string text

inductive ConnectionFault where
  | frame (fault : FrameFault)
  | unreadable
  | invalidRequest
  deriving DecidableEq, Repr

def ConnectionFault.message : ConnectionFault → String
  | frame fault => fault.message
  | unreadable => "unmarshaling jsonrpc message: invalid message"
  | invalidRequest => "JSON-RPC invalid request"

/-- A message from an editor. Absent parameters are the empty text. -/
inductive Message where
  | call (id : CallId) (method params : String)
  | notification (method params : String)
  | response
  deriving DecidableEq, Repr

namespace Message

/-- The last member with a name, compared without regard to ASCII case. -/
def member? (members : List (String × Json)) (name : String) : Option Json :=
  (members.reverse.find? fun m => m.1.map Char.toLower == name).map (·.2)

/-- The identity in a message: none when it is absent or null. The empty name counts as
the number 0. -/
def readId : Option Json → Except ConnectionFault (Option CallId)
  | none | some .null => .ok none
  | some (.number text) =>
    match text.toInt? with
    | some n => if Number.fits32 n then .ok (some (.number n)) else .error .unreadable
    | none => .error .unreadable
  | some (.string text) => .ok (some (if text.isEmpty then .number 0 else .name text))
  | some _ => .error .unreadable

/-- The text in a message, empty when it is absent or null. -/
def readText : Option Json → Except ConnectionFault String
  | none | some .null => .ok ""
  | some (.string text) => .ok text
  | some _ => .error .unreadable

/-- The protocol version of a message has to be 2.0 when it is given. -/
def versionOk : Option Json → Bool
  | none => true
  | some (.string text) => text == "2.0"
  | some _ => false

/-- Whether the error of a response has its form. -/
def errorOk : Option Json → Bool
  | none | some .null => true
  | some (.object members) =>
    (match member? members "code" with
      | none | some .null => true
      | some (.number text) => text.toInt?.isSome
      | some _ => false) &&
    (match member? members "message" with
      | none | some .null | some (.string _) => true
      | some _ => false)
  | some _ => false

def ofMembers (members : List (String × Json)) : Except ConnectionFault Message :=
  if !versionOk (member? members "jsonrpc") || !errorOk (member? members "error") then
    .error .unreadable
  else
    match readId (member? members "id"), readText (member? members "method") with
    | .error e, _ => .error e
    | _, .error e => .error e
    | .ok id, .ok method =>
      let params := match member? members "params" with
        | none | some .null => ""
        | some v => v.render
      match id with
      | none => if method.isEmpty then .error .invalidRequest else .ok (.notification method params)
      | some id => if method.isEmpty then .ok .response else .ok (.call id method params)

def decode (text : String) : Except ConnectionFault Message :=
  match Json.parse? text with
  | some (.object members) => ofMembers members
  | some .null => .error .invalidRequest
  | _ => .error .unreadable

end Message

def replyJson (id : CallId) : Outcome → Option Json
  | .result value =>
    some (.object [("jsonrpc", .string "2.0"), ("result", value), ("id", id.json)])
  | .badParams => some (failure 0 "invalid params")
  | .unknownMethod _ => some (failure (-32601) "JSON-RPC method not found")
  | .silent => none
where
  failure (code : Int) (message : String) : Json :=
    .object [("jsonrpc", .string "2.0"),
      ("error", .object [("code", .ofInt code), ("message", .string message)]), ("id", id.json)]

def Notice.message (n : Notice) : Json :=
  .object [("jsonrpc", .string "2.0"), ("method", .string Notice.methodName), ("params", n.json)]

structure Transcript where
  sent : List Json
  log : List LogEvent
  fault : Option ConnectionFault

namespace Server

/-- Handles a message: the messages sent for it, first the notices. -/
def receive (s : Server) : Message → Server × List Json × List LogEvent
  | .response => (s, [], [])
  | .notification method params =>
    let served := s.serve method params
    (served.server, served.notices.map (·.message), served.log)
  | .call id method params =>
    let served := s.serve method params
    (served.server, served.notices.map (·.message) ++ (replyJson id served.outcome).toList,
      served.log)

/-- Handles the messages of an input until it ends or fails. The first argument bounds
their number. -/
def converse : Nat → Server → List UInt8 → Transcript
  | 0, _, _ => ⟨[], [], none⟩
  | fuel + 1, s, bytes =>
    match nextFrame bytes with
    | .closed => ⟨[], [], none⟩
    | .failed fault => ⟨[], [], some (.frame fault)⟩
    | .body body rest =>
      match Message.decode (textOf body) with
      | .error fault => ⟨[], [], some fault⟩
      | .ok message =>
        let (s, sent, log) := s.receive message
        let later := converse fuel s rest
        ⟨sent ++ later.sent, log ++ later.log, later.fault⟩

/-- Serves a whole input, with the events of starting and stopping. -/
def run (s : Server) (input : String) : Transcript :=
  let bytes := input.toUTF8.toList
  let t := s.converse (bytes.length + 1) bytes
  let stopped := if t.fault.isSome then [] else [.editorStopped]
  { t with log := .editorStarted :: t.log ++ stopped }

end Server

def Transcript.output (t : Transcript) : String :=
  String.join (t.sent.map fun m => frameText m.render)

end Stepwise.Editor
