import Stepwise.Document.StepLine
import Stepwise.Document.Basic
import Stepwise.Keyword.NearMiss

/-!
# The classes of lines

Every line of a document has one class. Most lines have it by themselves. Two things
carry over from line to line: an open fence, which makes a docstring of everything
up to the next fence of its kind, and the heading of a feature or a rule, after
which free text is description.
-/
namespace Stepwise

inductive Fence where
  | quotes
  | ticks
  deriving DecidableEq, Repr

def Fence.mark : Fence → String
  | quotes => "\"\"\""
  | ticks => "\x60\x60\x60"

/-- The fence that a trimmed line starts with. -/
def Fence.of? (trimmed : String) : Option Fence :=
  if Text.startsWith quotes.mark trimmed then some quotes
  else if Text.startsWith ticks.mark trimmed then some ticks
  else none

inductive LineClass where
  | blank
  | comment
  | tag
  | table
  | docString
  | metatag
  | importLine
  | header
  | description
  | step
  | unknown
  deriving DecidableEq, Repr

inductive LineForm where
  | blank
  | fence (f : Fence)
  | comment
  | tag
  | table
  | metatag
  | importLine
  | header (kind : Kind)
  | step
  | free
  deriving DecidableEq, Repr

/-- The form of a line that is not blank and opens with none of the marks. -/
def LineForm.ofWords (c : Configuration) (trimmed : String) : LineForm :=
  if c.isMetatag trimmed then .metatag
  else if c.isImportLine trimmed then .importLine
  else match c.lexicon.findHeader? trimmed with
    | some k => .header k.kind
    | none => if (StepLine.of? c.lexicon trimmed).isSome then .step else .free

def LineForm.of (c : Configuration) (trimmed : String) : LineForm :=
  if trimmed.isEmpty then .blank
  else match Fence.of? trimmed with
    | some f => .fence f
    | none =>
      if Text.startsWith "#" trimmed then .comment
      else if Text.startsWith "@" trimmed then .tag
      else if Text.startsWith "|" trimmed then .table
      else .ofWords c trimmed

/-- Whether the first word of a line is a mistyped step keyword. -/
def Configuration.opensWithNearMiss (c : Configuration) (line : String) : Bool :=
  match Text.words line with
  | word :: _ => (c.lexicon.nearMiss? word).isSome
  | [] => false

structure LineContext where
  fence : Option Fence
  inDescription : Bool
  deriving DecidableEq, Repr

def LineContext.start : LineContext := ⟨none, false⟩

/-- The class of a line outside docstrings, and the context after it. -/
def LineContext.classifyForm (c : Configuration) (before : LineContext) (trimmed : String) :
    LineForm → LineClass × LineContext
  | .blank => (.blank, before)
  | .fence f => (.docString, { before with fence := some f })
  | .comment => (.comment, before)
  | .tag => (.tag, before)
  | .table => (.table, before)
  | .metatag => (.metatag, before)
  | .importLine => (.importLine, before)
  | .header kind => (.header, { before with inDescription := kind.takesDescription })
  | .step => (.step, { before with inDescription := false })
  | .free =>
    if before.inDescription && !c.opensWithNearMiss trimmed then (.description, before)
    else (.unknown, before)

/-- The class of a line, and the context after it. -/
def LineContext.classify (c : Configuration) (before : LineContext) (line : String) :
    LineClass × LineContext :=
  let trimmed := Text.trim line
  match before.fence with
  | some f =>
    (.docString, if Text.startsWith f.mark trimmed then { before with fence := none } else before)
  | none => before.classifyForm c trimmed (.of c trimmed)

def LineContext.classifyAll (c : Configuration) : LineContext → List String → List LineClass
  | _, [] => []
  | before, line :: rest =>
    let (cls, after) := before.classify c line
    cls :: classifyAll c after rest

def Document.classes (c : Configuration) (d : Document) : List LineClass :=
  LineContext.start.classifyAll c d.lines

end Stepwise
