/-!
# Log events

What happens is reported as a list of events. Each event has a fixed text and a
level; a log shows the events from a chosen level on.
-/
namespace Stepwise

inductive LogLevel where
  | debug
  | info
  | warn
  | error
  | dpanic
  | panic
  | fatal
  deriving DecidableEq, Repr

namespace LogLevel

/-- All levels, least first. -/
def all : List LogLevel := [debug, info, warn, error, dpanic, panic, fatal]

def name : LogLevel → String
  | debug => "debug"
  | info => "info"
  | warn => "warn"
  | error => "error"
  | dpanic => "dpanic"
  | panic => "panic"
  | fatal => "fatal"

def rank : LogLevel → Nat
  | debug => 0
  | info => 1
  | warn => 2
  | error => 3
  | dpanic => 4
  | panic => 5
  | fatal => 6

/-- Whether an event of this level is shown in a log that starts at `least`. -/
def shownFrom (level least : LogLevel) : Bool :=
  least.rank ≤ level.rank

end LogLevel

inductive LogEvent where
  | undecodable
  | processing
  | replaced
  | rejected
  | completionContext
  | unknownDocument
  | sectionLoaded
  | registryLoaded
  | registryFaulty
  | workerFailed
  | editorStarted
  | editorStopped
  | requestReceived
  | initializing
  | initialized
  | shuttingDown
  | exiting
  | opened
  | changed
  | closed
  | publishing
  deriving DecidableEq, Repr

namespace LogEvent

def level : LogEvent → LogLevel
  | undecodable | rejected | registryFaulty => .warn
  | workerFailed => .error
  | registryLoaded | editorStarted | editorStopped | initializing | initialized
  | shuttingDown | exiting => .info
  | processing | replaced | completionContext | unknownDocument | sectionLoaded
  | requestReceived | opened | changed | closed | publishing => .debug

def text : LogEvent → String
  | undecodable => "failed to decode message"
  | processing => "processing message"
  | replaced => "configuration replaced"
  | rejected => "rejected configuration payload"
  | completionContext => "completion context"
  | unknownDocument => "query for unknown document"
  | sectionLoaded => "registry section loaded"
  | registryLoaded => "registry loaded"
  | registryFaulty => "registry loaded with errors"
  | workerFailed => "worker input failed"
  | editorStarted => "language server started"
  | editorStopped => "language server stopped"
  | requestReceived => "received request"
  | initializing => "initializing server"
  | initialized => "server initialized"
  | shuttingDown => "server shutting down"
  | exiting => "server exiting"
  | opened => "document opened"
  | changed => "document changed"
  | closed => "document closed"
  | publishing => "publishing diagnostics"

def shown (least : LogLevel) (events : List LogEvent) : List LogEvent :=
  events.filter (·.level.shownFrom least)

end LogEvent
end Stepwise
