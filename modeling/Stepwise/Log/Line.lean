import Stepwise.Json.Value
import Stepwise.Log.Event

/-!
# Lines of a log

An event is written as a JSON object on a line of its own.
-/
namespace Stepwise

def LogEvent.line (e : LogEvent) : String :=
  (Json.object [("level", .string e.level.name), ("msg", .string e.text)]).render ++ "\n"

def LogEvent.lines (events : List LogEvent) : String :=
  String.join (events.map LogEvent.line)

end Stepwise
