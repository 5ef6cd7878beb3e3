import Stepwise.Document.StepLine
import Stepwise.Document.Basic
import Stepwise.Step.Placeholder

/-!
# Links to imports

On an import line the first quoted token declares a name. On a step line every
quoted token that is the name of an import refers to it.
-/
namespace Stepwise

structure ImportMention where
  lineNumber : Nat
  token : Step.Placeholder
  isDeclaration : Bool
  deriving DecidableEq, Repr

def ImportMention.name (m : ImportMention) : String :=
  m.token.inner

def quotedTokens (line : String) : List Step.Placeholder :=
  (Step.placeholders line).filter (·.delimiter.isQuote)

def Configuration.mentionsOn (c : Configuration) (lineNumber : Nat) (line : String) :
    List ImportMention :=
  if c.isImportLine line then
    ((quotedTokens line).take 1).map fun p => ⟨lineNumber, p, true⟩
  else if (StepLine.of? c.lexicon line).isSome then
    ((quotedTokens line).filter fun p => (c.imports.find? p.inner).isSome).map
      fun p => ⟨lineNumber, p, false⟩
  else []

/-- The mentions of a document in order. -/
def Document.mentions (c : Configuration) (d : Document) : List ImportMention :=
  d.numbered.flatMap fun (number, line) => c.mentionsOn number line

/-- A token that leads somewhere. A name that is not in the import table leads nowhere. -/
structure Link where
  span : Span
  target : Option Target
  name : String
  deriving DecidableEq, Repr

def Target.tooltip (t : Target) : String :=
  if 0 < t.lineNumber then t.uri ++ ":" ++ toString t.lineNumber else t.uri

def ImportMention.link (c : Configuration) (m : ImportMention) : Link :=
  ⟨.onLine m.lineNumber m.token.start m.token.stop, c.imports.find? m.name, m.name⟩

/-- The links of a document in order. -/
def Document.links (c : Configuration) (d : Document) : List Link :=
  (d.mentions c).map (·.link c)

/-- The target of a name that is not blank. -/
def Configuration.linkTarget? (c : Configuration) (name : String) : Option Target :=
  if (Text.trim name).isEmpty then none else c.imports.find? name

end Stepwise
