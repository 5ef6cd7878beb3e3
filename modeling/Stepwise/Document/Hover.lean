import Stepwise.Document.StepLine
import Stepwise.Document.Basic
import Stepwise.Step.Placeholder

/-!
# Hover texts

Over a placeholder that names a variable its value is shown, and anywhere else on a
line the step that the line invokes.
-/
namespace Stepwise

structure Hover where
  span : Span
  blocks : List String
  deriving DecidableEq, Repr

def Variable.description (v : Variable) : String :=
  "\x60" ++ v.name ++ "\x60 = " ++ v.value

/-- The description of a step: its label, its documentation and its group, the last two
only when there are any. -/
def StepDefinition.description (s : StepDefinition) : List String :=
  ["**" ++ s.label ++ "**"] ++
    (if s.documentation.isEmpty then [] else [s.documentation]) ++
    (if s.group.isEmpty then [] else ["_" ++ s.group ++ "_"])

def Hover.ofVariable? (c : Configuration) (line : String) (lineNumber column : Int) :
    Option Hover :=
  (Step.placeholderAt? line column).bind fun p =>
    (c.vars.find? p.inner).map fun v =>
      ⟨.onLine lineNumber p.start p.stop, [v.description]⟩

/-- The hover of the step that a line invokes. -/
def Hover.ofStep? (c : Configuration) (line : String) (lineNumber column : Int) :
    Option Hover :=
  (c.invokedStep? line).map fun s => ⟨.ofContent line lineNumber column, s.description⟩

/-- What is shown at a place of a document. -/
def Document.hover? (c : Configuration) (d : Document) (lineNumber column : Int) :
    Option Hover :=
  let line := d.line lineNumber
  (Hover.ofVariable? c line lineNumber column).or (Hover.ofStep? c line lineNumber column)

end Stepwise
