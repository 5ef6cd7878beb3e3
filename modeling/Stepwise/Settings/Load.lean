import Stepwise.Number.Word
import Stepwise.Settings.Basic
import Stepwise.Settings.File

/-!
# Loading settings

A setting comes from the first of these that has it: a flag, the environment, the
settings file, the default. The value found is converted to the type of the setting;
numbers and truth values are taken for texts where a text is wanted.
-/
namespace Stepwise

inductive SettingKey where
  | logLevel
  | logFile
  | registry
  | importDirectives
  | memoTtl
  deriving DecidableEq, Repr

namespace SettingKey

/-- The name of a setting in a settings file; a dot goes into a table. -/
def name : SettingKey → String
  | logLevel => "log_level"
  | logFile => "log_file"
  | registry => "registry"
  | importDirectives => "import_directives"
  | memoTtl => "memo.ttl"

end SettingKey

/-- The name of the environment variable for a name in a settings file. -/
def environmentName (name : String) : String :=
  "TGLS_" ++ String.ofList (name.toList.map fun c => if c == '.' then '_' else c.toUpper)

/-- The environment variables that bear on the settings. -/
def environmentNames : List String :=
  "TGLS_MEMO" ::
    [SettingKey.logLevel, .logFile, .registry, .importDirectives, .memoTtl].map fun key =>
      environmentName key.name

structure SettingsSources where
  flags : List (SettingKey × SettingValue)
  environment : List (String × String)
  file : SettingTable

namespace SettingsSources

/-- The text that the environment has for a name. An empty text counts as none. -/
def fromEnvironment? (s : SettingsSources) (name : String) : Option SettingValue :=
  match s.environment.lookup (environmentName name) with
  | some text => if text.isEmpty then none else some (.text text)
  | none => none

/-- A member of a table that is not null. -/
def member? (table : SettingTable) (name : String) : Option SettingValue :=
  match table.lookup name with
  | some .null => none
  | v => v

/-- The value that the file has for a setting. A name with a dot may be written as such
or as a member of a table. -/
def fromFile? (s : SettingsSources) (key : SettingKey) : Option SettingValue :=
  (member? s.file key.name).or
    (match key, member? s.file "memo" with
      | .memoTtl, some (.table members) => member? members "ttl"
      | _, _ => none)

/-- The value of a setting, if any source but the defaults has it. -/
def find? (s : SettingsSources) (key : SettingKey) : Option SettingValue :=
  (s.flags.lookup key).or ((s.fromEnvironment? key.name).or (s.fromFile? key))

end SettingsSources

inductive SettingFault where
  | notText (name : String) (v : SettingValue)
  | notLength (name : String) (v : SettingValue)
  | badDuration (name : String) (e : DurationError)
  | notTable (name : String) (v : SettingValue)

namespace SettingFault

def unfit (name wanted : String) (v : SettingValue) : String :=
  "'" ++ name ++ "' expected type '" ++ wanted ++ "', got unconvertible type '" ++ v.typeName ++
    "', value: '" ++ v.display ++ "'"

def message : SettingFault → String
  | notText name v => unfit name "string" v
  | notLength name v => unfit name "time.Duration" v
  | badDuration name e => "error decoding '" ++ name ++ "': " ++ e.message
  | notTable name v => "'" ++ name ++ "' expected a map, got '" ++ v.sortName ++ "'"

end SettingFault

abbrev Fitting (α : Type) := Except (List SettingFault) α

namespace SettingValue

def asText (name : String) : SettingValue → Fitting String
  | .null => .ok ""
  | .text s => .ok s
  | .bool b => .ok (if b then "1" else "0")
  | .int n => .ok (toString n)
  | .float x => .ok (floatText x)
  | .irregular s => .ok s
  | v => .error [.notText name v]

/-- The texts that the items of a list stand for, with the faults of all items. -/
def itemTexts (name : String) (index : Nat) : List SettingValue → Fitting (List String)
  | [] => .ok []
  | v :: rest =>
    let first := v.asText (name ++ "[" ++ toString index ++ "]")
    match first, itemTexts name (index + 1) rest with
    | .ok s, .ok ss => .ok (s :: ss)
    | .ok _, .error e => .error e
    | .error e, .ok _ => .error e
    | .error e, .error e' => .error (e ++ e')

/-- The texts that a value stands for. A text is split at its commas, an empty table is
an empty list, and any other single value is a list of one. -/
def asTexts (name : String) : SettingValue → Fitting (List String)
  | .null => .ok []
  | .text s => .ok (if s.isEmpty then [] else Text.splitAtChar ',' s)
  | .list items => itemTexts name 0 items
  | .table [] => .ok []
  | v => itemTexts name 0 [v]

/-- The whole part of a double in 64 bits; what is out of range is the least number. -/
def wholePart (x : Number.Binary64) : Int :=
  let n := x.truncate
  if Number.fits64 n then n else Number.least64

/-- The duration that a value stands for. A number counts nanoseconds. -/
def asDuration (name : String) : SettingValue → Fitting Duration
  | .null => .ok ⟨0⟩
  | .text s =>
    match Duration.parse s with
    | .ok d => .ok d
    | .error e => .error [.badDuration name e]
  | .bool b => .ok ⟨if b then 1 else 0⟩
  | .int n => .ok ⟨Number.wrap64 n⟩
  | .float x => .ok ⟨wholePart x⟩
  | .irregular _ => .ok ⟨Number.least64⟩
  | v => .error [.notLength name v]

end SettingValue

/-- Joins two fittings and their faults. -/
def Fitting.both {α β γ : Type} (f : α → β → γ) : Fitting α → Fitting β → Fitting γ
  | .ok a, .ok b => .ok (f a b)
  | .ok _, .error e => .error e
  | .error e, .ok _ => .error e
  | .error e, .error e' => .error (e ++ e')

namespace Settings

open SettingsSources

def textOf (s : SettingsSources) (key : SettingKey) (fallback : String) : Fitting String :=
  match s.find? key with
  | some v => v.asText key.name
  | none => .ok fallback

/-- The words that open an import line. -/
def directivesOf (s : SettingsSources) : Fitting (List String) :=
  match s.find? .importDirectives with
  | some v => v.asTexts SettingKey.importDirectives.name
  | none => .ok default.importDirectives

/-- How long markers are remembered. A value in place of the whole `memo` table hides the
setting; the environment can do that too. -/
def ttlOf (s : SettingsSources) : Fitting Duration :=
  let name := SettingKey.memoTtl.name
  match s.file.lookup "memo", s.fromEnvironment? "memo" with
  | some (.table _), shadow | none, shadow =>
    match s.flags.lookup .memoTtl, s.fromEnvironment? name with
    | some v, _ => v.asDuration name
    | none, some v => v.asDuration name
    | none, none =>
      if shadow.isSome then .ok ⟨0⟩
      else
        match s.fromFile? .memoTtl with
        | some v => v.asDuration name
        | none => .ok default.memoTtl
  | some _, some v => .error [.notTable "memo" v]
  | some .null, none => .ok default.memoTtl
  | some v, none => .error [.notTable "memo" v]

/-- The settings that the sources hold, before any check. -/
def decode (s : SettingsSources) : Fitting Settings :=
  let texts := Fitting.both Prod.mk (textOf s .logLevel default.logLevel)
    (Fitting.both Prod.mk (textOf s .logFile default.logFile)
      (textOf s .registry default.registry))
  Fitting.both (fun (l, f, r) (d, t) => ⟨l, f, r, d, t⟩) texts
    (Fitting.both Prod.mk (directivesOf s) (ttlOf s))

end Settings

inductive FileState where
  | missing
  | directory
  | content (text : String)
  deriving DecidableEq, Repr

inductive SettingsReadFault where
  | unsupported (extension : String)
  | missing
  | directory
  | unparsable (fault : SettingsTextFault)
  deriving DecidableEq, Repr

inductive SettingsError where
  | unreadable (path : String) (fault : SettingsReadFault)
  | undecodable (faults : List SettingFault)
  | invalid (issues : List SettingsIssue)

namespace SettingsError

def readMessage (path : String) : SettingsReadFault → String
  | .unsupported extension => "Unsupported Config Type " ++ Text.quoted extension
  | .missing => "open " ++ path ++ ": no such file or directory"
  | .directory => "read " ++ path ++ ": is a directory"
  | .unparsable fault => "While parsing config: " ++ fault.message

/-- The text of an error. Faults are sorted by their texts. -/
def message : SettingsError → String
  | unreadable path fault => "reading config " ++ path ++ ": " ++ readMessage path fault
  | undecodable faults =>
    let points := (faults.map fun f => "* " ++ f.message).mergeSort fun a b => decide (a ≤ b)
    "decoding config: " ++ toString faults.length ++ " error(s) decoding:\n\n" ++
      "\n".intercalate points
  | invalid issues => "invalid config: " ++ "; ".intercalate (issues.map (·.message))

end SettingsError

namespace Settings

/-- The table of the settings file at a path; no path stands for no file. -/
def readFile (path : String) (state : FileState) : Except SettingsError SettingTable :=
  if path.isEmpty then .ok []
  else
    let extension := SettingsFormat.extension path
    match SettingsFormat.ofExtension? extension, state with
    | none, _ => .error (.unreadable path (.unsupported extension))
    | some _, .missing => .error (.unreadable path .missing)
    | some _, .directory => .error (.unreadable path .directory)
    | some format, .content text =>
      (format.table text).mapError fun fault => .unreadable path (.unparsable fault)

/-- Loads the settings from flags, the environment and a file. -/
def load (flags : List (SettingKey × SettingValue)) (environment : List (String × String))
    (path : String) (state : FileState) : Except SettingsError Settings :=
  match readFile path state with
  | .error e => .error e
  | .ok file =>
    match decode ⟨flags, environment, file⟩ with
    | .error faults => .error (.undecodable faults)
    | .ok settings =>
      if settings.issues.isEmpty then .ok settings else .error (.invalid settings.issues)

end Settings
end Stepwise
