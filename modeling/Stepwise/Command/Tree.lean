import Stepwise.Command.Flag

/-!
# The commands

There is a command for each way to run, and one each for the version and for help.
Without a command an editor is served.
-/
namespace Stepwise.Command

inductive Name where
  | root
  | lsp
  | worker
  | version
  | help
  | completion
  deriving DecidableEq, Repr

def programName : String := "turbo-gherkin-ls"

namespace Name

/-- The commands below the root, in the order in which they were added. -/
def subcommands : List Name := [lsp, worker, version, help, completion]

/-- The commands below the root in the order in which they are listed. -/
def listed : List Name := [completion, help, lsp, version, worker]

def word : Name → String
  | root => programName
  | lsp => "lsp"
  | worker => "worker"
  | version => "version"
  | help => "help"
  | completion => "completion"

def path : Name → String
  | root => programName
  | c => programName ++ " " ++ c.word

def short : Name → String
  | root => "Language server for Gherkin-style test scenarios"
  | lsp => "Serve the Language Server Protocol over stdio"
  | worker => "Answer JSON requests from stdin, one response per line on stdout"
  | version => "Show version information"
  | help => "Help about any command"
  | completion => "Generate the autocompletion script for the specified shell"

/-- What a command does; the short line when there is no more to say. -/
def long : Name → String
  | root =>
    "A language server for Gherkin-style test scenarios with localized keywords, " ++
      "step registries, variables and imports."
  | worker =>
    "Reads a stream of JSON request objects on stdin. Configuration and\n" ++
      "document messages are applied silently; every query is answered with one\n" ++
      "\x7b\"id\", \"data\", \"success\"\x7d object per line on stdout."
  | help =>
    "Help provides help for any command in the application.\nSimply type " ++ programName ++
      " help [path to command] for full details."
  | completion =>
    "Generate the autocompletion script for " ++ programName ++ " for the specified shell.\n" ++
      "See each sub-command's help for details on how to use the generated script.\n"
  | c => c.short

/-- Whether a command can be run by itself. -/
def isRunnable : Name → Bool
  | completion => false
  | _ => true

/-- The commands below a command with a line about each, as they are listed. -/
def children : Name → List (String × String)
  | root => listed.map fun c => (c.word, c.short)
  | completion =>
    ["bash", "fish", "powershell", "zsh"].map fun shell =>
      (shell, "Generate the autocompletion script for " ++ shell)
  | _ => []

/-- How a command is used. -/
def useLine : Name → String
  | root => programName ++ " [flags]"
  | help => help.path ++ " [command] [flags]"
  | c => c.path ++ " [flags]"

def ofWord? (word : String) : Option Name :=
  subcommands.find? fun c => c.word == word

end Name

def globalFlags : List Flag :=
  [⟨"config", some 'c', .text, "config file (YAML, JSON or TOML)", ""⟩,
    ⟨"import-directive", none, .words, "words that start an import line", ""⟩,
    ⟨"log-file", none, .text, "write logs to this file instead of stderr", ""⟩,
    ⟨"log-level", none, .text, "log level: debug, info, warn or error",
      Text.quoted Settings.default.logLevel⟩,
    ⟨"memo-ttl", none, .duration, "how long syntax check results are cached",
      Settings.default.memoTtl.text⟩,
    ⟨"registry", some 'r', .text,
      "registry file with keywords, steps, variables and imports", ""⟩]

def helpFlag (c : Name) : Flag :=
  ⟨"help", some 'h', .switch, "help for " ++ c.word, ""⟩

/-- The flags that a command has for itself. The version flag needs a version. -/
def ownFlags (c : Name) (version : String) : List Flag :=
  if c = .root && !version.isEmpty then
    [helpFlag c, ⟨"version", some 'v', .switch, "version for " ++ c.word, ""⟩]
  else [helpFlag c]

def flagsOf (c : Name) (version : String) : List Flag :=
  globalFlags ++ ownFlags c version

/-- Whether the argument after this one is taken for its value while the command is
looked for. At that point every flag counts as one that takes a value. -/
def takesNext (argument : String) : Bool :=
  let cs := argument.toList
  !cs.contains '=' && ("--".toList.isPrefixOf cs || (cs.head? == some '-' && cs.length == 2))

/-- The arguments that are neither flags nor values of flags. -/
def plainArguments : List String → List String
  | [] => []
  | argument :: rest =>
    if argument == "--" then []
    else if takesNext argument then
      match rest with
      | _ :: next :: more => plainArguments (next :: more)
      | _ => []
    else if argument.isEmpty || argument.toList.head? == some '-' then plainArguments rest
    else argument :: plainArguments rest

/-- The arguments without the first plain one equal to a word. -/
def dropWord (word : String) : List String → List String
  | [] => []
  | argument :: rest =>
    if argument == "--" then argument :: rest
    else if takesNext argument then
      match rest with
      | [] => [argument]
      | value :: more => argument :: value :: dropWord word more
    else if argument == word then rest
    else argument :: dropWord word rest

/-- The command of a command line and the arguments left for it, or the word that is no
command. -/
def find (arguments : List String) : Except String (Name × List String) :=
  match plainArguments arguments with
  | [] => .ok (.root, arguments)
  | word :: _ =>
    match Name.ofWord? word with
    | some c => .ok (c, dropWord word arguments)
    | none => .error word

/-- The rest of a row of the table of edit distances for a byte. The row before it is
given from the entry above the last one on. -/
def distances (byte : UInt8) (last : Nat) : List Nat → List UInt8 → List Nat
  | diagonal :: above :: row, b :: word =>
    let best := if b == byte then diagonal else 1 + min last (min above diagonal)
    best :: distances byte best (above :: row) word
  | _, _ => []

/-- The edit distance of two words, byte by byte. -/
def editDistance (a b : String) : Nat :=
  let word := b.toUTF8.toList
  let first := List.range (word.length + 1)
  let row := a.toUTF8.toList.foldl
    (fun row byte => (row.headD 0 + 1) :: distances byte (row.headD 0 + 1) row word) first
  row.getLastD 0

/-- The commands that a mistyped word may have meant: those within two edits, and those
that begin with it. Help is not among them. -/
def suggestions (typed : String) : List String :=
  let lower := Text.lowerSimple typed
  (Name.subcommands.filter fun c => c != .help).map Name.word |>.filter fun word =>
    editDistance lower word ≤ 2 || Text.startsWith lower word

def unknownMessage (typed : String) : String :=
  let similar := suggestions typed
  "unknown command " ++ Text.quoted typed ++ " for " ++ Text.quoted programName ++
    (if similar.isEmpty then ""
      else "\n\nDid you mean this?\n" ++ String.join (similar.map fun w => "\t" ++ w ++ "\n"))

end Stepwise.Command
