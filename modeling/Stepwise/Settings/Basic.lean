import Stepwise.Configuration.Basic
import Stepwise.Log.Event
import Stepwise.Settings.Duration

/-!
# Settings

The settings of a run: what is logged and where, the registry to start with, the
words that open an import line, and how long remembered markers are kept. All that
is wrong with settings is reported at once.
-/
namespace Stepwise

structure Settings where
  logLevel : String
  logFile : String
  registry : String
  importDirectives : List String
  memoTtl : Duration
  deriving DecidableEq, Repr

inductive SettingsIssue where
  | unknownLevel (name : String)
  | negativeTtl (ttl : Duration)
  | notOneWord (index : Nat) (directive : String)
  deriving DecidableEq, Repr

def SettingsIssue.message : SettingsIssue → String
  | unknownLevel name => "log_level: unrecognized level: " ++ Text.quoted name
  | negativeTtl ttl => "memo.ttl must not be negative, got " ++ ttl.text
  | notOneWord index directive =>
    "import_directives[" ++ toString index ++ "]: " ++ Text.quoted directive ++
      " must be a single word"

/-- The level with a name in any case; the empty name stands for `info`. -/
def LogLevel.ofName? (name : String) : Option LogLevel :=
  let lower := Text.lowerSimple name
  if lower.isEmpty then some .info else LogLevel.all.find? fun l => l.name == lower

namespace Settings

def default : Settings where
  logLevel := "info"
  logFile := ""
  registry := ""
  importDirectives := Configuration.defaultDirectives
  memoTtl := ⟨300 * Duration.second⟩

instance : Inhabited Settings := ⟨default⟩

/-- The level from which events are logged; an unknown level counts as `info`. -/
def level (s : Settings) : LogLevel :=
  (LogLevel.ofName? s.logLevel).getD .info

/-- Whether a directive may open an import line. -/
def isWord (directive : String) : Bool :=
  !(Text.trim directive).isEmpty && !directive.toList.any fun c => c == ' ' || c == '\t'

def directiveIssues (index : Nat) : List String → List SettingsIssue
  | [] => []
  | d :: rest =>
    if isWord d then directiveIssues (index + 1) rest
    else .notOneWord index d :: directiveIssues (index + 1) rest

def issues (s : Settings) : List SettingsIssue :=
  (if (LogLevel.ofName? s.logLevel).isSome then [] else [.unknownLevel s.logLevel]) ++
    (if s.memoTtl.nanoseconds < 0 then [.negativeTtl s.memoTtl] else []) ++
    directiveIssues 0 s.importDirectives

end Settings
end Stepwise
