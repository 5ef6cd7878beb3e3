import Stepwise.Command.Run
import Stepwise.Log.Line

/-!
# The program

The outer layer: it looks at the environment and at the files that a command line
names, and then writes what there is to write or serves its input piece by piece.
What to answer is decided elsewhere.
-/
namespace Stepwise.Program

/-- What is found under a path. -/
def fileState (path : String) : IO FileState := do
  try
    return .content (← IO.FS.readFile path)
  catch
    | .inappropriateType .. => return .directory
    | _ => return .missing

/-- The environment, as far as it matters. -/
def environment : IO (List (String × String)) :=
  environmentNames.filterMapM fun name => do
    return (← IO.getEnv name).map fun value => (name, value)

/-- Adds the files to the surroundings that a command line turns out to name. -/
def lookAround (around : Command.Surroundings) (arguments : List String) :
    IO Command.Surroundings := do
  let states ← (Command.pathsOf around arguments).mapM fun path => do
    return (path, ← fileState path)
  return { around with file := fun path => (states.lookup path).getD .missing }

def report (settings : Settings) (events : List LogEvent) : IO Unit := do
  let text := LogEvent.lines (LogEvent.shown settings.level events)
  if text.isEmpty then return
  if settings.logFile.isEmpty then IO.eprint text
  else
    let handle ← IO.FS.Handle.mk settings.logFile .append
    handle.putStr text

/-- Writes a text and hands it over at once. -/
def send (text : String) : IO Unit := do
  let stdout ← IO.getStdout
  stdout.putStr text
  stdout.flush

/-- Ends with a fault, if there is one. -/
def conclude : Option String → IO UInt32
  | none => return 0
  | some message => do
    IO.eprint (Command.Outcome.errorText message)
    return 1

/-- Reads lines up to an empty one. -/
partial def readHeader (stdin : IO.FS.Stream) (before : String) : IO String := do
  let line ← stdin.getLine
  let lines := before ++ line
  if line.isEmpty || (Text.trim line).isEmpty then return lines
  readHeader stdin lines

/-- Reads bytes up to a number of them, fewer only when the input ends. -/
partial def readBytes (stdin : IO.FS.Stream) (count : Nat) (before : ByteArray) :
    IO ByteArray := do
  if count ≤ before.size then return before
  let bytes ← stdin.read (count - before.size).toUSize
  if bytes.isEmpty then return before
  readBytes stdin count (before ++ bytes)

/-- The next frame of the input. -/
def readFrame (stdin : IO.FS.Stream) : IO Editor.FrameItem := do
  let header ← readHeader stdin ""
  match Editor.readHead header.toUTF8.toList with
  | .closed => return .closed
  | .failed fault => return .failed fault
  | .length n rest =>
    let body ← readBytes stdin n ⟨rest.toArray⟩
    return Editor.readBody n body.toList

/-- Serves an editor, message by message. -/
partial def serveEditor (stdin : IO.FS.Stream) (settings : Settings) (server : Editor.Server) :
    IO UInt32 := do
  match ← readFrame stdin with
  | .closed =>
    report settings [.editorStopped]
    conclude none
  | .failed fault => conclude (some fault.message)
  | .body bytes _ =>
    match Editor.Message.decode (Editor.textOf bytes) with
    | .error fault => conclude (some fault.message)
    | .ok message =>
      let (server, sent, log) := server.receive message
      report settings log
      send (String.join (sent.map fun m => Editor.frameText m.render))
      serveEditor stdin settings server

/-- Works off requests. A request is complete at the end of a line or at the start of the
next request. -/
partial def serveWorker (stdin : IO.FS.Stream) (settings : Settings) (session : Session)
    (pending : List Char) : IO UInt32 := do
  match Json.nextItem pending with
  | .value text rest =>
    let step := session.workOn (String.ofList text)
    report settings step.log
    match step.line with
    | .error fault => conclude (some fault.message)
    | .ok line =>
      send (String.join (line.toList.map (· ++ "\n")))
      serveWorker stdin settings step.session rest
  | .done how =>
    let line ← stdin.getLine
    if line.isEmpty then
      let last := session.workEnd how
      report settings last.log
      conclude (last.fault.map (·.message))
    else serveWorker stdin settings session (pending ++ Json.upToNul line)

/-- Carries out what a command line asks for. -/
def carryOut (version : Command.Version) : Command.Plan → IO UInt32
  | .finished outcome => do
    send outcome.output
    IO.eprint outcome.errors
    return if outcome.failed then 1 else 0
  | .serve service s => do
    report s.settings s.log
    let stdin ← IO.getStdin
    match service with
    | .worker => serveWorker stdin s.settings s.session []
    | .editor =>
      report s.settings [.editorStarted]
      serveEditor stdin s.settings (.ofSession s.session version.number true)

end Stepwise.Program

open Stepwise in
/-- Runs the command line. The settings file is looked at first, because it may name
further files. -/
def main (arguments : List String) : IO UInt32 := do
  let version := Command.Version.development
  let nothing : Command.Surroundings := ⟨← Program.environment, fun _ => .missing, version⟩
  let settings ← Program.lookAround nothing arguments
  let around ← Program.lookAround settings arguments
  Program.carryOut version (Command.plan around arguments)
