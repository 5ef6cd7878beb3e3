import Stepwise.Keyword.Lexicon
import Stepwise.Registry.Variables
import Stepwise.Registry.Imports
import Stepwise.Step.Index

/-!
# The configuration

All registries form one value. A change replaces one registry and counts up the
generation, and leaves every other registry alone. The index of step shapes belongs
to the steps and is replaced with them.
-/
namespace Stepwise

structure Configuration where
  lexicon : Lexicon
  metatags : List String
  steps : Steps
  vars : Variables
  imports : Imports
  messages : List (String × String)
  directives : List String
  generation : Nat
  shapes : ShapeIndex

namespace Configuration

/-- The metatags known before any are configured. -/
def defaultMetatags : List String := ["try", "except", "попытка", "исключение"]

/-- The words that open an import line before any are configured. -/
def defaultDirectives : List String := ["import", "импорт"]

/-- The name of the message that a flagged line carries. -/
def syntaxMessageName : String := "syntaxMsg"

def defaultMessages : List (String × String) := [(syntaxMessageName, "Syntax error")]

def initial : Configuration where
  lexicon := .empty
  metatags := defaultMetatags
  steps := .empty
  vars := .empty
  imports := .empty
  messages := defaultMessages
  directives := defaultDirectives
  generation := 0
  shapes := .ofSteps .empty

instance : Inhabited Configuration := ⟨initial⟩

/-- The next generation of a configuration. -/
def advance (c : Configuration) : Configuration :=
  { c with generation := c.generation + 1 }

def withLexicon (c : Configuration) (lexicon : Lexicon) : Configuration :=
  { c.advance with lexicon }

def withMetatags (c : Configuration) (metatags : List String) : Configuration :=
  { c.advance with metatags }

/-- Replaces the steps together with their index. -/
def withSteps (c : Configuration) (steps : Steps) : Configuration :=
  { c.advance with steps, shapes := .ofSteps steps }

def withVariables (c : Configuration) (vars : Variables) : Configuration :=
  { c.advance with vars }

def withImports (c : Configuration) (imports : Imports) : Configuration :=
  { c.advance with imports }

def withMessages (c : Configuration) (messages : List (String × String)) : Configuration :=
  { c.advance with messages }

/-- Replaces the words that open an import line. -/
def withDirectives (c : Configuration) (directives : List String) : Configuration :=
  { c.advance with directives }

/-- A configured message that is not empty, or else the built-in one. -/
def message (c : Configuration) (name : String) : String :=
  match c.messages.lookup name with
  | some text => if text.isEmpty then (defaultMessages.lookup name).getD "" else text
  | none => (defaultMessages.lookup name).getD ""

/-- The text of a flagged line. -/
def syntaxMessage (c : Configuration) : String :=
  c.message syntaxMessageName

/-- The first step whose key has the shape of a text. -/
def findStep? (c : Configuration) (text : String) : Option StepDefinition :=
  (c.shapes.position? (Step.shape text)).bind fun i => c.steps.all[i]?

/-- A word without the colon at its end. -/
def dropColon (word : String) : String :=
  match word.toList.reverse with
  | ':' :: rest => String.ofList rest.reverse
  | _ => word

/-- Whether a line is a metatag alone, perhaps with a colon after it. -/
def isMetatag (c : Configuration) (line : String) : Bool :=
  match Text.words line with
  | [word] => c.metatags.any fun tag => Text.foldEqual (dropColon word) tag
  | _ => false

/-- Whether a line starts with an import directive. -/
def isImportLine (c : Configuration) (line : String) : Bool :=
  match Text.words line with
  | word :: _ => c.directives.any fun directive => Text.foldEqual word directive
  | [] => false

end Configuration
end Stepwise
