import Stepwise.Json.Stream
import Stepwise.Session.Basic

/-!
# Working off a stream of requests

A worker reads requests from a stream and writes one line for each reply, in the
order of the requests. It stops at the first piece of text that is no JSON, after
all earlier replies are written.
-/
namespace Stepwise

/-- Why a worker stops before the end of its input. -/
inductive WorkerFault where
  | malformedInput
  | unwritableReply (fault : Json.CompactFault)
  deriving DecidableEq, Repr

def WorkerFault.message : WorkerFault → String
  | malformedInput => "failed to read message: unexpected end of JSON input"
  | unwritableReply fault =>
    "failed to write response: json: error calling MarshalJSON for type *message.Response: " ++
      "json: error calling MarshalJSON for type jsontext.Value: " ++ fault.message

structure WorkerRun where
  session : Session
  lines : List String
  log : List LogEvent
  fault : Option WorkerFault

structure WorkerStep where
  session : Session
  line : Except WorkerFault (Option String)
  log : List LogEvent

namespace Session

def workOn (s : Session) (text : String) : WorkerStep :=
  let handled := s.processText text
  let line := match handled.reply with
    | none => .ok none
    | some reply =>
      match reply.text with
      | .ok line => .ok (some line)
      | .error fault => .error (.unwritableReply fault)
  ⟨handled.session, line, handled.log⟩

/-- The end of a run after the last request. -/
def workEnd (s : Session) : Json.StreamEnd → WorkerRun
  | .finished => ⟨s, [], [], none⟩
  | .broken => ⟨s, [], [.workerFailed], some .malformedInput⟩

/-- Handles requests one after the other, up to a reply that cannot be written. -/
def workOff (s : Session) (how : Json.StreamEnd) : List String → WorkerRun
  | [] => s.workEnd how
  | text :: rest =>
    let step := s.workOn text
    match step.line with
    | .error fault => ⟨step.session, [], step.log, some fault⟩
    | .ok line =>
      let run := workOff step.session how rest
      { run with lines := line.toList ++ run.lines, log := step.log ++ run.log }

def work (s : Session) (input : String) : WorkerRun :=
  let (requests, how) := Json.stream input
  s.workOff how requests

end Session

/-- What a worker writes: each reply on a line of its own. -/
def WorkerRun.output (r : WorkerRun) : String :=
  String.join (r.lines.map (· ++ "\n"))

end Stepwise
