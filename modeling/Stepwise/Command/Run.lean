import Stepwise.Command.Help
import Stepwise.Editor.Connection
import Stepwise.Session.RegistryFile
import Stepwise.Session.Worker

/-!
# Running a command line

A command line and its surroundings (the environment, the files and the version)
decide what there is to do: to write something and end, to serve an editor, or to
work off requests. With an input, that gives an outcome: what is written, what is
logged and whether the run failed.
-/
namespace Stepwise.Command

structure Version where
  number : String
  commit : String
  date : String
  deriving DecidableEq, Repr

/-- The version of a program that was not released. -/
def Version.development : Version := ⟨"dev", "none", "unknown"⟩

structure Surroundings where
  environment : List (String × String)
  file : String → FileState
  version : Version

/-- What comes of a run. The log goes to a file when one is named. -/
structure Outcome where
  output : String
  errors : String
  log : List LogEvent
  logFile : String
  failed : Bool

namespace Outcome

def written (output : String) : Outcome := ⟨output, "", [], "", false⟩

def errorText (message : String) : String :=
  "Error: " ++ message ++ "\n"

def error (message : String) : Outcome := ⟨"", errorText message, [], "", true⟩

end Outcome

/-- The value of a flag as a setting. A single empty word counts as no word. -/
def FlagValue.setting : FlagValue → SettingValue
  | text s => .text s
  | words [""] => .list []
  | words ws => .list (ws.map .text)
  | duration d => .text d.text
  | truth b => .bool b

def settingFlags : List (String × SettingKey) :=
  [("log-level", .logLevel), ("log-file", .logFile), ("registry", .registry),
    ("import-directive", .importDirectives), ("memo-ttl", .memoTtl)]

def Parsed.settings (p : Parsed) : List (SettingKey × SettingValue) :=
  settingFlags.filterMap fun (name, key) => (p.values.lookup name).map fun v => (key, v.setting)

/-- The path of the settings file, or the empty path. -/
def Parsed.configPath (p : Parsed) : String :=
  match p.values.lookup "config" with
  | some (.text path) => path
  | _ => ""

inductive PathFault where
  | missing
  | notDirectory
  | isDirectory
  deriving DecidableEq, Repr

def PathFault.message : PathFault → String
  | missing => "no such file or directory"
  | notDirectory => "not a directory"
  | isDirectory => "is a directory"

inductive StartError where
  | settings (e : SettingsError)
  | logFile (path : String) (fault : PathFault)
  | registry (path : String) (fault : PathFault)

def StartError.message : StartError → String
  | settings e => e.message
  | logFile path fault =>
    "opening log file: couldn't open sink " ++ Text.quoted path ++ ": open " ++ path ++ ": " ++
      fault.message
  | registry path fault => "registry: stat " ++ path ++ ": " ++ fault.message

def directoryOf (path : String) : String :=
  let before := (path.toList.reverse.dropWhile (· != '/')).drop 1
  if before.isEmpty then "/" else String.ofList before.reverse

/-- What keeps the names in the directory of a path from being looked up. -/
def Surroundings.directoryFault? (around : Surroundings) (path : String) : Option PathFault :=
  match around.file (directoryOf path) with
  | .directory => none
  | .missing => some .missing
  | .content _ => some .notDirectory

/-- What keeps a file from being opened for writing. -/
def Surroundings.writeFault? (around : Surroundings) (path : String) : Option PathFault :=
  match around.file path with
  | .directory => some .isDirectory
  | .content _ => none
  | .missing => around.directoryFault? path

/-- What keeps a path from being found. -/
def Surroundings.lookFault? (around : Surroundings) (path : String) : Option PathFault :=
  match around.file path with
  | .missing => some ((around.directoryFault? path).getD .missing)
  | _ => none

structure Started where
  settings : Settings
  session : Session
  log : List LogEvent

/-- Applies the registry file, if the settings name one. -/
def startSession (around : Surroundings) (settings : Settings) : Except StartError Started :=
  let session := Session.withDirectives settings.importDirectives
  if settings.registry.isEmpty then .ok ⟨settings, session, []⟩
  else
    match around.lookFault? settings.registry, around.file settings.registry with
    | some fault, _ => .error (.registry settings.registry fault)
    | none, .content text =>
      let loaded := session.loadRegistry text
      let last := if loaded.errors.isEmpty then .registryLoaded else .registryFaulty
      .ok ⟨settings, loaded.session, loaded.log ++ [last]⟩
    | none, _ => .ok ⟨settings, session, [.registryFaulty]⟩

def loadSettings (around : Surroundings) (p : Parsed) : Except SettingsError Settings :=
  Settings.load p.settings around.environment p.configPath (around.file p.configPath)

def start (around : Surroundings) (p : Parsed) : Except StartError Started :=
  match loadSettings around p with
  | .error e => .error (.settings e)
  | .ok settings =>
    if settings.logFile.isEmpty then startSession around settings
    else
      match around.writeFault? settings.logFile with
      | some fault => .error (.logFile settings.logFile fault)
      | none => startSession around settings

inductive Service where
  | editor
  | worker
  deriving DecidableEq, Repr

inductive Plan where
  | finished (outcome : Outcome)
  | serve (service : Service) (started : Started)

/-- Starts a service, unless its session cannot be started. -/
def planService (around : Surroundings) (service : Service) (p : Parsed) : Plan :=
  match start around p with
  | .error e => .finished (.error e.message)
  | .ok s => .serve service s

def versionText (v : Version) : String :=
  programName ++ " " ++ v.number ++ "\nCommit: " ++ v.commit ++ "\nBuilt: " ++ v.date ++ "\n"

/-- What a command with its flags and plain arguments asks for. Only the root, help and
completion take plain arguments. -/
def planCommand (around : Surroundings) (c : Name) (p : Parsed) : Plan :=
  let refuse := fun word : String =>
    Plan.finished (.error
      ("unknown command " ++ Text.quoted word ++ " for " ++ Text.quoted c.path))
  match c, p.arguments with
  | .root, _ => planService around .editor p
  | .help, topics => .finished (.written (helpOn topics around.version.number))
  | .completion, _ => .finished (.written (helpText c around.version.number))
  | _, word :: _ => refuse word
  | .lsp, [] => planService around .editor p
  | .worker, [] => planService around .worker p
  | .version, [] => .finished (.written (versionText around.version))

/-- The command of a command line with its flags, or an outcome that needs no more. -/
def readLine (version : String) (arguments : List String) : Except Outcome (Name × Parsed) :=
  match find arguments with
  | .error word =>
    .error ⟨"", Outcome.errorText (unknownMessage word) ++ "Run '" ++ programName ++
      " --help' for usage.\n", [], "", true⟩
  | .ok (c, rest) =>
    match parseFlags (flagsOf c version) rest with
    | .error e => .error (.error e.message)
    | .ok p =>
      if p.isOn "help" then .error (.written (helpText c version))
      else if p.isOn "version" then
        .error (.written (programName ++ " version " ++ version ++ "\n"))
      else .ok (c, p)

def plan (around : Surroundings) (arguments : List String) : Plan :=
  match readLine around.version.number arguments with
  | .error outcome => .finished outcome
  | .ok (c, p) => planCommand around c p

/-- The outcome of a session: the events of its level are logged. -/
def Started.finish (s : Started) (output : String) (log : List LogEvent)
    (fault : Option String) : Outcome where
  output := output
  errors := match fault with
    | some message => Outcome.errorText message
    | none => ""
  log := LogEvent.shown s.settings.level (s.log ++ log)
  logFile := s.settings.logFile
  failed := fault.isSome

def Service.run (service : Service) (s : Started) (version input : String) : Outcome :=
  match service with
  | editor =>
    let t := (Editor.Server.ofSession s.session version true).run input
    s.finish t.output t.log (t.fault.map (·.message))
  | worker =>
    let r := s.session.work input
    s.finish r.output r.log (r.fault.map (·.message))

def run (around : Surroundings) (arguments : List String) (input : String) : Outcome :=
  match plan around arguments with
  | .finished outcome => outcome
  | .serve service s => service.run s around.version.number input

/-- The paths that a command line makes the program look at, as far as the files that are
known so far tell. -/
def pathsOf (around : Surroundings) (arguments : List String) : List String :=
  match readLine around.version.number arguments with
  | .error _ => []
  | .ok (_, p) =>
    let later := match loadSettings around p with
      | .error _ => []
      | .ok settings => [settings.logFile, settings.registry]
    let paths := (p.configPath :: later).filter fun path => !path.isEmpty
    paths ++ paths.map directoryOf

end Stepwise.Command
