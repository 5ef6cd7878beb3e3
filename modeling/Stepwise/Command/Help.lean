import Stepwise.Command.Tree

/-!
# Help texts

The help of a command says what it does, how it is used, and which flags it takes.
-/
namespace Stepwise.Command

def FlagKind.valueWord : FlagKind → String
  | text => " string"
  | words => " strings"
  | duration => " duration"
  | switch => ""

def Flag.leftColumn (f : Flag) : String :=
  (match f.letter with
    | some c => "  -" ++ c.toString ++ ", --" ++ f.name
    | none => "      --" ++ f.name) ++ f.kind.valueWord

/-- A text filled up with spaces to a width. -/
def padded (width : Nat) (text : String) : String :=
  text ++ String.ofList (List.replicate (width - text.length) ' ')

/-- The flags in the order of their names, one on a line, their usage in one column. -/
def flagTable (flags : List Flag) : String :=
  let sorted := flags.mergeSort fun a b => decide (a.name ≤ b.name)
  let width := (sorted.map fun f => f.leftColumn.length).foldl max 0
  let line := fun f : Flag =>
    padded width f.leftColumn ++ "   " ++ f.usage ++
      (if f.shownDefault.isEmpty then "" else " (default " ++ f.shownDefault ++ ")")
  "\n".intercalate (sorted.map line)

def wordWidth : Nat := 11

/-- How a command is used. `own` are the flags shown as its own. -/
def usage (c : Name) (own inherited : List Flag) : String :=
  let listing := fun (title : String) (flags : List Flag) =>
    if flags.isEmpty then "" else "\n\n" ++ title ++ ":\n" ++ flagTable flags
  "Usage:" ++ (if c.isRunnable then "\n  " ++ c.useLine else "") ++
    (if c.children.isEmpty then ""
      else
        "\n  " ++ c.path ++ " [command]\n\nAvailable Commands:" ++
          String.join (c.children.map fun (word, short) =>
            "\n  " ++ padded wordWidth word ++ " " ++ short)) ++
    listing "Flags" own ++ listing "Global Flags" inherited ++
    (if c.children.isEmpty then ""
      else
        "\n\nUse \"" ++ c.path ++ " [command] --help\" for more information about a command.") ++
    "\n"

def fullUsage (c : Name) (version : String) : String :=
  if c = .root then usage c (globalFlags ++ ownFlags c version) []
  else usage c (ownFlags c version) globalFlags

/-- A text without white space at its end. -/
def trimRight (text : String) : String :=
  String.ofList (Text.trimEnd text.toList)

def helpText (c : Name) (version : String) : String :=
  trimRight c.long ++ "\n\n" ++ fullUsage c version

/-- A topic between back quotes, or between double quotes when it cannot stand there. -/
def quotedTopic (topic : String) : String :=
  let plain := topic.toList.all fun c =>
    c.toNat != 0x60 && c.toNat != 0x7f && c.toNat != 0xfeff && (0x20 ≤ c.toNat || c == '\t')
  if plain then "\x60" ++ topic ++ "\x60" else Text.quoted topic

/-- The answer to a question for help on topics that are no command. -/
def unknownTopic (topics : List String) : String :=
  "Unknown help topic [" ++ " ".intercalate (topics.map quotedTopic) ++ "]\n" ++
    usage .root globalFlags []

def helpOn (topics : List String) (version : String) : String :=
  match find topics with
  | .ok (c, _) => helpText c version
  | .error _ => unknownTopic topics

end Stepwise.Command
